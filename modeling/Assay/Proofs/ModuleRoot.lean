import Assay.Analyzer.Toolchain
import Assay.Proofs.Files.Root
import Assay.Proofs.Files.Visit

/-!
# The root of a module

The search for the root of a module starts from the resolution of a path and climbs from one directory to the one
above it until there is a marker, no further than its boundary. One step of it is `settles_child`: a search is
settled where it starts, or passes on to be settled from the directory above. So it ends with the verdict at the
first directory that it cannot pass (`markerAmong_ancestorsOf`): the nearest one with a marker
(`Bounds.found_iff`), unless it meets a path that is too long (`markerRoot_eq_error`). A tool for Go is told the
way back from there by a pattern, whose directory leads to the project again (`markerRoot_spec`). A missing
directory with a long name keeps a search from its root, and a boundary that is reached through a loop of links
does not stop it (`markerRoot_astray`).
-/

namespace Assay

namespace Files

/-! ## Directories that a search may look at -/

/-- The directories that a search from `here` may look at: those at or above it, but none strictly above the
limit. A limit that lies neither at `here` nor above it limits nothing. -/
structure IsClimbed (here : Path) (limit : Option Path) (p : Path) : Prop where
  above : here.isWithin p = true
  limited : ∀ l ∈ limit, here.isWithin l = true → p.isWithin l = true

section

variable {here p : Path} {limit : Option Path} {name : String} {anchor : Anchor}

theorem isClimbed_self : IsClimbed here limit here := ⟨Path.isWithin_self _, fun _ _ h => h⟩

theorem isClimbed_root : IsClimbed ⟨anchor, []⟩ limit p ↔ p = ⟨anchor, []⟩ := by
  constructor
  · exact fun h => Path.isWithin_nil.mp h.above
  · rintro rfl
    exact isClimbed_self

/-- A search may look at the directory that it starts from, and if that is not its limit, at whatever a search
from the one above it may look at. -/
theorem isClimbed_child : IsClimbed (here.child name) limit p ↔
    p = here.child name ∨ limit ≠ some (here.child name) ∧ IsClimbed here limit p := by
  constructor
  · intro h
    refine (Path.isWithin_child.mp h.above).imp_right fun habove => ⟨?_, habove, fun l hl hlabove => ?_⟩
    · rintro rfl
      have hself := h.limited _ rfl (Path.isWithin_self _)
      exact Path.not_isWithin_child (Path.isWithin_trans habove hself)
    · exact h.limited l hl (Path.isWithin_child.mpr (.inr hlabove))
  · rintro (rfl | ⟨hlimit, h⟩)
    · exact isClimbed_self
    · refine ⟨Path.isWithin_child.mpr (.inr h.above), fun l hl hlabove => ?_⟩
      rcases Path.isWithin_child.mp hlabove with rfl | hlabove
      · exact absurd hl hlimit
      · exact h.limited l hl hlabove

end

namespace Tree

variable {t : Tree} {markers : List String} {marker : String} {here p q : Path} {limit : Option Path}
  {name : String} {b : Breach}

theorem ancestorsOf_root {anchor : Anchor} : ancestorsOf ⟨anchor, []⟩ = [⟨anchor, []⟩] := rfl

theorem ancestorsOf_child : ancestorsOf (p.child name) = p.child name :: ancestorsOf p := by
  unfold ancestorsOf Path.child
  rw [List.length_append, List.length_singleton, List.range_succ_eq_map, List.map_cons, List.map_map]
  congr 1
  · rw [Nat.sub_zero, List.take_of_length_le (by simp)]
  · refine List.map_congr_left fun n _ => ?_
    have hle : p.parts.length - n ≤ p.parts.length := Nat.sub_le _ _
    simp [List.take_append_of_le_length hle]

/-! ## Markers in a directory -/

theorem isFile?_eq_error {e : StatFault} :
    t.isFile? p = .error e ↔ e = .nameTooLong ∧ t.stat p = .error .nameTooLong := by
  unfold isFile? test
  cases t.stat p with
  | ok n => simp
  | error fault => cases fault <;> simp [eq_comm]

/-- A marker cannot be looked at exactly if the path to it is too long. -/
theorem isMarkedBy_eq_error : t.isMarkedBy p marker = .error b ↔
    '\x00' ∉ marker.toList ∧ b = .fileSystem ∧ t.stat (p / Path.ofString marker) = .error .nameTooLong := by
  unfold isMarkedBy
  split
  · next hnul => simp [List.contains_iff_mem.mp hnul]
  · next hnul =>
    rw [List.contains_iff_mem] at hnul
    rw [mapError_eq_error, and_iff_right hnul]
    constructor
    · rintro ⟨e, he, rfl⟩
      exact ⟨rfl, (isFile?_eq_error.mp he).2⟩
    · rintro ⟨rfl, hstat⟩
      exact ⟨_, isFile?_eq_error.mpr ⟨rfl, hstat⟩, rfl⟩

/-- A name that a marker can have: that of an entry, however long. -/
def IsFileName (s : String) : Prop := IsName s ∧ '/' ∉ s.toList ∧ '\x00' ∉ s.toList

instance : DecidablePred IsFileName := fun _ => inferInstanceAs (Decidable (_ ∧ _ ∧ _))

/-- The path leads to a directory that has an entry of this name, and the entry leads to a regular file. -/
def Contains (t : Tree) (p : Path) (name : String) : Prop :=
  ∃ entries n, t.stat p = .ok (.directory entries) ∧ (name, n) ∈ entries ∧ t.isFile? (p.child name) = .ok true

/-- **One piece of a lookup** that succeeds stays, leads up, through a link, or down. -/
theorem walkTo_cons_eq_ok {follow : Place → List String → Except StatFault Place} {start place : Place}
    {first : String} {rest : List String} : t.walkTo true follow start (first :: rest) = .ok place ↔
    (∃ entries, t.top.at? start = some (.directory entries)) ∧
      (((first = "" ∨ first = ".") ∧ t.walkTo true follow start rest = .ok place) ∨
        (first = ".." ∧ t.walkTo true follow start.dropLast rest = .ok place) ∨
        IsName first ∧ first.utf8ByteSize ≤ maxNameBytes ∧ ∃ n, t.top.at? (start ++ [first]) = some n ∧
          ((∃ target, n = .link target ∧ target ≠ "" ∧
              follow (linkStart start target) (Text.splitOn '/' target ++ rest) = .ok place) ∨
            n.isLink = false ∧ t.walkTo true follow (start ++ [first]) rest = .ok place)) := by
  rw [walkTo]
  cases hstart : t.top.at? start with
  | none => simp
  | some node =>
      cases node with
      | file content executable => simp
      | link target => simp
      | directory entries =>
          by_cases hskip : first = "" ∨ first = "."
          · rcases hskip with rfl | rfl <;> simp [IsName]
          by_cases hup : first = ".."
          · simp [hup, IsName]
          have hname : IsName first := ⟨fun h => hskip (.inl h), fun h => hskip (.inr h), hup⟩
          dsimp only
          rw [if_neg hname.not_skip, if_neg hname.not_up]
          by_cases hlong : maxNameBytes < first.utf8ByteSize
          · simp [hskip, hup, hlong, Nat.not_le.mpr hlong]
          cases hnext : t.top.at? (start ++ [first]) with
          | none => simp [hskip, hup, hlong]
          | some n =>
              have hshort : first.utf8ByteSize ≤ maxNameBytes := Nat.le_of_not_lt hlong
              cases n with
              | file content executable => simp [hskip, hup, hname, hlong, hshort, Node.isLink]
              | directory below => simp [hskip, hup, hname, hlong, hshort, Node.isLink]
              | link target =>
                  by_cases hempty : target = ""
                  · simp [hskip, hup, hlong, hempty, Node.isLink]
                  · simp [hskip, hup, hname, hlong, hshort, hempty, Node.isLink, linkStart]

/-- The lookup of an entry passes through its directory, if every lookup that a link is handed to does. The
induction is on the pieces that lead to the directory. -/
theorem directory_of_walkTo {follow : Place → List String → Except StatFault Place} (hname : IsName name)
    (hfollow : ∀ start todo place, follow start (todo ++ [name]) = .ok place →
      ∃ above entries n, follow start todo = .ok above ∧ t.top.at? above = some (.directory entries) ∧
        (name, n) ∈ entries)
    {start place : Place} {todo : List String} (h : t.walkTo true follow start (todo ++ [name]) = .ok place) :
    ∃ above entries n, t.walkTo true follow start todo = .ok above ∧
      t.top.at? above = some (.directory entries) ∧ (name, n) ∈ entries := by
  induction todo generalizing start with
  | nil =>
      obtain ⟨⟨entries, hentries⟩, ⟨hskip, -⟩ | ⟨hup, -⟩ | ⟨-, -, n, hn, -⟩⟩ := walkTo_cons_eq_ok.mp h
      · exact absurd hname (not_isName hskip).1
      · exact absurd hup hname.2.2
      · rw [Node.at?_append, hentries, Option.bind_some, Node.at?] at hn
        split at hn
        · next child hchild =>
          obtain ⟨_, heq, hmem⟩ := Node.mem_of_child? hchild
          exact ⟨start, entries, child, rfl, hentries, Node.directory.inj heq ▸ hmem⟩
        · cases hn
  | cons first rest ih =>
      rw [List.cons_append] at h
      obtain ⟨hstart, hnext⟩ := walkTo_cons_eq_ok.mp h
      rcases hnext with ⟨hskip, h⟩ | ⟨hup, h⟩ | ⟨hfirst, hshort, m, hm, ⟨target, hlink, hne, h⟩ | ⟨hplain, h⟩⟩
      · obtain ⟨above, entries, n, habove, hentry⟩ := ih h
        exact ⟨above, entries, n, walkTo_cons_eq_ok.mpr ⟨hstart, .inl ⟨hskip, habove⟩⟩, hentry⟩
      · obtain ⟨above, entries, n, habove, hentry⟩ := ih h
        exact ⟨above, entries, n, walkTo_cons_eq_ok.mpr ⟨hstart, .inr (.inl ⟨hup, habove⟩)⟩, hentry⟩
      · rw [← List.append_assoc] at h
        obtain ⟨above, entries, n, habove, hentry⟩ := hfollow _ _ _ h
        exact ⟨above, entries, n, walkTo_cons_eq_ok.mpr
          ⟨hstart, .inr (.inr ⟨hfirst, hshort, m, hm, .inl ⟨target, hlink, hne, habove⟩⟩)⟩, hentry⟩
      · obtain ⟨above, entries, n, habove, hentry⟩ := ih h
        exact ⟨above, entries, n, walkTo_cons_eq_ok.mpr
          ⟨hstart, .inr (.inr ⟨hfirst, hshort, m, hm, .inr ⟨hplain, habove⟩⟩)⟩, hentry⟩

theorem directory_of_locate (hname : IsName name) {links : Nat} {start place : Place} {todo : List String}
    (h : t.locate true links start (todo ++ [name]) = .ok place) :
    ∃ above entries n, t.locate true links start todo = .ok above ∧
      t.top.at? above = some (.directory entries) ∧ (name, n) ∈ entries := by
  induction links generalizing start place todo with
  | zero => exact directory_of_walkTo hname (fun _ _ _ hloop => by simp at hloop) h
  | succ links ih =>
      rw [locate] at h ⊢
      refine directory_of_walkTo hname ?_ h
      exact fun _ _ _ hlink => ih hlink

/-- **What is found by its name stands in a directory** that the rest of the path leads to. -/
theorem directory_of_stat {n : Node} (hname : IsName name) (h : t.stat (p.child name) = .ok n) :
    ∃ entries m, t.stat p = .ok (.directory entries) ∧ (name, m) ∈ entries := by
  have hbelow : (p.below [name]).Fits := fits_of_stat h
  have hfits : p.Fits := hbelow.of_below
  obtain ⟨found, hfound, -⟩ := stat_eq_ok.mp h
  unfold find at hfound
  split at hfound
  · exact nomatch hfound
  · obtain ⟨above, entries, m, habove, hentries, hm⟩ := directory_of_locate hname hfound
    refine ⟨entries, m, stat_eq_ok.mpr ⟨above, ?_, hentries⟩, hm⟩
    rw [find, if_neg (Nat.not_le_of_lt hfits)]
    exact habove

/-- **A marker that is a file name** marks a directory exactly if the directory contains it. -/
theorem isMarkedBy_eq_true (hname : IsFileName name) :
    t.isMarkedBy p name = .ok true ↔ t.Contains p name := by
  obtain ⟨hname, hslash, hnul⟩ := hname
  have hpath : Path.ofString name = ⟨.here, [name]⟩ := Path.ofString_name hslash ⟨hname.1, hname.2.1⟩
  have hentry : p / Path.ofString name = p.child name := by
    rw [hpath]
    rfl
  have htest : t.isMarkedBy p name = .ok true ↔ t.isFile? (p.child name) = .ok true := by
    unfold isMarkedBy
    rw [if_neg (by simpa using hnul), mapError_eq_ok, hentry]
  rw [htest]
  constructor
  · intro hfile
    have htest : (t.isFile? (p.child name)).toOption.getD false = true := by
      rw [hfile]
      rfl
    -- a file that is found is found as an entry, so the way to it leads through the directory
    obtain ⟨n, hn⟩ := stat_of_test htest
    obtain ⟨entries, m, hentries, hm⟩ := directory_of_stat hname hn
    exact ⟨entries, m, hentries, hm, hfile⟩
  · rintro ⟨-, -, -, -, hfile⟩
    exact hfile

/-! ## The climb -/

/-- The search comes to the directory: it may look at it, and every nearer one could be looked at and has no
marker. -/
structure ComesTo (t : Tree) (markers : List String) (here : Path) (limit : Option Path) (p : Path) : Prop where
  climbed : IsClimbed here limit p
  unmarked : ∀ q, IsClimbed here limit q → q.isWithin p = true → q ≠ p →
    ∀ marker ∈ markers, t.isMarkedBy q marker = .ok false

theorem comesTo_self : t.ComesTo markers here limit here :=
  ⟨isClimbed_self, fun _ hq hwithin hne => absurd (Path.isWithin_antisymm hwithin hq.above) hne⟩

/-- **One step of a climb**: a search comes to the directory that it starts from, and if there is no marker and
no limit, to whatever a search from the one above it comes to. -/
theorem comesTo_child : t.ComesTo markers (here.child name) limit p ↔ p = here.child name ∨
    limit ≠ some (here.child name) ∧ (∀ marker ∈ markers, t.isMarkedBy (here.child name) marker = .ok false) ∧
      t.ComesTo markers here limit p := by
  constructor
  · intro h
    rcases isClimbed_child.mp h.climbed with hself | ⟨hlimit, habove⟩
    · exact .inl hself
    · refine .inr ⟨hlimit, ?_, habove, fun q hq => h.unmarked q (isClimbed_child.mpr (.inr ⟨hlimit, hq⟩))⟩
      refine h.unmarked _ isClimbed_self h.climbed.above ?_
      rintro rfl
      exact Path.not_isWithin_child habove.above
  · rintro (rfl | ⟨hlimit, hnone, h⟩)
    · exact comesTo_self
    · refine ⟨isClimbed_child.mpr (.inr ⟨hlimit, h.climbed⟩), fun q hq hwithin hne => ?_⟩
      rcases isClimbed_child.mp hq with rfl | ⟨-, hq⟩
      · exact hnone
      · exact h.unmarked q hq hwithin hne

/-- What the search ends with at a directory, unless it passes on. -/
def verdict (t : Tree) (markers : List String) (p : Path) : Option (Except Breach (Option Path)) :=
  match markers.anyM (t.isMarkedBy p) with
  | .ok true => some (.ok (some p))
  | .ok false => none
  | .error b => some (.error b)

theorem verdict_eq_none :
    t.verdict markers p = none ↔ ∀ marker ∈ markers, t.isMarkedBy p marker = .ok false := by
  rw [← anyM_eq_false, verdict]
  cases markers.anyM (t.isMarkedBy p) with
  | error b => simp
  | ok found => cases found <;> simp

theorem verdict_eq_some {outcome : Except Breach (Option Path)} : t.verdict markers p = some outcome ↔
    markers.anyM (t.isMarkedBy p) = .ok true ∧ outcome = .ok (some p) ∨
      ∃ b, markers.anyM (t.isMarkedBy p) = .error b ∧ outcome = .error b := by
  rw [verdict]
  cases markers.anyM (t.isMarkedBy p) with
  | error b => simp [eq_comm]
  | ok found => cases found <;> simp [eq_comm]

theorem verdict_eq_found : t.verdict markers p = some (.ok (some q)) ↔
    q = p ∧ markers.anyM (t.isMarkedBy p) = .ok true := by
  simp [verdict_eq_some, and_comm]

theorem verdict_eq_error : t.verdict markers p = some (.error b) ↔
    markers.anyM (t.isMarkedBy p) = .error b := by
  simp [verdict_eq_some]

theorem verdict_ne_nothing : t.verdict markers p ≠ some (.ok none) := by
  simp [verdict_eq_some]

theorem markerAmong_cons {rest : List Path} : t.markerAmong markers limit (p :: rest) =
    (t.verdict markers p).getD (if limit = some p then .ok none else t.markerAmong markers limit rest) := by
  rw [markerAmong, verdict]
  cases markers.anyM (t.isMarkedBy p) with
  | error b => rfl
  | ok found =>
      cases found with
      | true => rfl
      | false => simp only [beq_iff_eq]; rfl

/-- The search cannot pass a directory that it comes to, and ends with the verdict there. -/
def Settles (t : Tree) (markers : List String) (here : Path) (limit : Option Path)
    (outcome : Except Breach (Option Path)) : Prop :=
  ∃ p, t.ComesTo markers here limit p ∧ t.verdict markers p = some outcome

variable {outcome : Except Breach (Option Path)}

theorem settles_root {anchor : Anchor} : t.Settles markers ⟨anchor, []⟩ limit outcome ↔
    t.verdict markers ⟨anchor, []⟩ = some outcome := by
  constructor
  · rintro ⟨p, hp, hverdict⟩
    obtain rfl := isClimbed_root.mp hp.climbed
    exact hverdict
  · exact fun hverdict => ⟨_, comesTo_self, hverdict⟩

/-- A search is settled where it starts, or passes on to be settled from the directory above. -/
theorem settles_child : t.Settles markers (here.child name) limit outcome ↔
    t.verdict markers (here.child name) = some outcome ∨ t.verdict markers (here.child name) = none ∧
      limit ≠ some (here.child name) ∧ t.Settles markers here limit outcome := by
  constructor
  · rintro ⟨p, hp, hverdict⟩
    rcases comesTo_child.mp hp with rfl | ⟨hlimit, hnone, hp⟩
    · exact .inl hverdict
    · exact .inr ⟨verdict_eq_none.mpr hnone, hlimit, p, hp, hverdict⟩
  · rintro (hverdict | ⟨hnone, hlimit, p, hp, hverdict⟩)
    · exact ⟨_, comesTo_self, hverdict⟩
    · exact ⟨p, comesTo_child.mpr (.inr ⟨hlimit, verdict_eq_none.mp hnone, hp⟩), hverdict⟩

/-- **The search ends at the first directory that it cannot pass**, which has a marker or cannot be looked at. The
induction is on the components of the path that it starts from, the last one first. -/
theorem markerAmong_ancestorsOf (hne : outcome ≠ .ok none) :
    t.markerAmong markers limit (ancestorsOf here) = outcome ↔ t.Settles markers here limit outcome := by
  induction here using Path.child_induction with
  | root anchor =>
      rw [ancestorsOf_root, markerAmong_cons, settles_root]
      cases t.verdict markers ⟨anchor, []⟩ with
      | some other => simp
      | none =>
          have hnothing : t.markerAmong markers limit [] = .ok none := rfl
          simp [hnothing, hne.symm]
  | child here name ih =>
      rw [ancestorsOf_child, markerAmong_cons, settles_child, ← ih]
      cases t.verdict markers (here.child name) with
      | some other => simp
      | none =>
          by_cases hlimit : limit = some (here.child name)
          · simp [hlimit, hne.symm]
          · simp [hlimit]

/-- A search that may look at a directory that it cannot pass is settled. -/
theorem exists_settles (hp : IsClimbed here limit p) (hstops : t.verdict markers p ≠ none) :
    ∃ outcome, t.Settles markers here limit outcome := by
  induction here using Path.child_induction with
  | root anchor =>
      obtain rfl := isClimbed_root.mp hp
      exact (Option.ne_none_iff_exists'.mp hstops).imp fun _ hverdict => settles_root.mpr hverdict
  | child here name ih =>
      cases hverdict : t.verdict markers (here.child name) with
      | some other => exact ⟨other, settles_child.mpr (.inl hverdict)⟩
      | none =>
          rcases isClimbed_child.mp hp with rfl | ⟨hlimit, hp⟩
          · exact absurd hverdict hstops
          · exact (ih hp).imp fun _ h => settles_child.mpr (.inr ⟨hverdict, hlimit, h⟩)

/-- The search ends with nothing exactly if it can pass every directory that it may look at. -/
theorem markerAmong_eq_nothing : t.markerAmong markers limit (ancestorsOf here) = .ok none ↔
    ∀ p, IsClimbed here limit p → ∀ marker ∈ markers, t.isMarkedBy p marker = .ok false := by
  constructor
  · intro h p hp
    by_contra hstops
    obtain ⟨outcome, hsettles⟩ := exists_settles hp fun hnone => hstops (verdict_eq_none.mp hnone)
    have hne : outcome ≠ .ok none := by
      rintro rfl
      obtain ⟨q, -, hverdict⟩ := hsettles
      exact verdict_ne_nothing hverdict
    exact hne ((markerAmong_ancestorsOf hne).mpr hsettles ▸ h)
  · intro hpasses
    by_contra hne
    obtain ⟨p, hp, houtcome⟩ := (markerAmong_ancestorsOf hne).mp rfl
    rw [verdict_eq_none.mpr (hpasses p hp.climbed)] at houtcome
    exact nomatch houtcome

/-! ## The search for a root -/

variable {start : Path} {boundary : Option Path}

theorem resolveGiven_eq_ok : t.resolveGiven p = .ok q ↔
    (∀ c ∈ p.parts, '\x00' ∉ c.toList) ∧ t.resolve p = .ok q := by
  unfold resolveGiven
  rw [guard_eq_ok]
  simp

/-- Where a search starts and where it ends at the latest. -/
structure Bounds (t : Tree) (start : Path) (boundary : Option Path) (here : Path) (limit : Option Path) :
    Prop where
  start : t.resolveGiven start = .ok here
  limit : boundary.mapM t.resolveGiven = .ok limit

theorem Bounds.markerRoot_eq (h : t.Bounds start boundary here limit) :
    t.markerRoot start markers boundary = t.markerAmong markers limit (ancestorsOf here) := by
  rw [markerRoot, h.start, ok_bind, h.limit, ok_bind]

theorem exists_bounds {found : Option Path} (h : t.markerRoot start markers boundary = .ok found) :
    ∃ here limit, t.Bounds start boundary here limit := by
  obtain ⟨here, hhere, h⟩ := bind_eq_ok.mp h
  obtain ⟨limit, hlimit, -⟩ := bind_eq_ok.mp h
  exact ⟨here, limit, hhere, hlimit⟩

/-- The root that is found lies at or above the resolution of the start. -/
theorem isWithin_of_markerRoot (h : t.markerRoot start markers boundary = .ok (some p)) :
    ∃ here, t.resolve start = .ok here ∧ here.isWithin p = true := by
  obtain ⟨here, limit, hbounds⟩ := exists_bounds h
  rw [hbounds.markerRoot_eq, markerAmong_ancestorsOf (by simp)] at h
  obtain ⟨q, hq, hfound⟩ := h
  obtain ⟨rfl, -⟩ := verdict_eq_found.mp hfound
  exact ⟨here, (resolveGiven_eq_ok.mp hbounds.start).2, hq.climbed.above⟩

/-- Of the directories that a search may look at, this one is the nearest with a marker. -/
structure IsNearest (t : Tree) (markers : List String) (here : Path) (limit : Option Path) (p : Path) :
    Prop where
  climbed : IsClimbed here limit p
  marked : ∃ marker ∈ markers, t.isMarkedBy p marker = .ok true
  nearest : ∀ q, IsClimbed here limit q → (∃ marker ∈ markers, t.isMarkedBy q marker = .ok true) →
    p.isWithin q = true

theorem IsNearest.unique (hp : t.IsNearest markers here limit p) (hq : t.IsNearest markers here limit q) : p = q :=
  Path.isWithin_antisymm (hp.nearest q hq.climbed hq.marked) (hq.nearest p hp.climbed hp.marked)

/-- A directory with a marker that a search comes to is the nearest one. -/
theorem ComesTo.isNearest (h : t.ComesTo markers here limit p)
    (hmarked : ∃ marker ∈ markers, t.isMarkedBy p marker = .ok true) : t.IsNearest markers here limit p := by
  refine ⟨h.climbed, hmarked, fun q hq ⟨marker, hmarker, hfile⟩ => ?_⟩
  rcases Path.isWithin_total h.climbed.above hq.above with hwithin | hwithin
  · exact hwithin
  · by_cases hself : q = p
    · rw [hself]
      exact Path.isWithin_self _
    · rw [h.unmarked q hq hwithin hself marker hmarker] at hfile
      exact nomatch hfile

/-- **What a search finds**: the nearest directory with a marker, and nothing exactly if there is none. -/
theorem Bounds.found_iff (hbounds : t.Bounds start boundary here limit) {found : Option Path}
    (h : t.markerRoot start markers boundary = .ok found) :
    (∀ p, found = some p ↔ t.IsNearest markers here limit p) ∧
      (found = none ↔
        ¬ ∃ p, IsClimbed here limit p ∧ ∃ marker ∈ markers, t.isMarkedBy p marker = .ok true) := by
  rw [hbounds.markerRoot_eq] at h
  cases found with
  | none =>
      have hnone := markerAmong_eq_nothing.mp h
      have hunmarked : ¬ ∃ p, IsClimbed here limit p ∧ ∃ marker ∈ markers, t.isMarkedBy p marker = .ok true := by
        rintro ⟨p, hp, marker, hmarker, hfile⟩
        rw [hnone p hp marker hmarker] at hfile
        exact nomatch hfile
      exact ⟨fun p => iff_of_false nofun fun hp => hunmarked ⟨p, hp.climbed, hp.marked⟩, iff_of_true rfl hunmarked⟩
  | some q =>
      obtain ⟨p, hp, hverdict⟩ := (markerAmong_ancestorsOf (by simp)).mp h
      obtain ⟨rfl, hany⟩ := verdict_eq_found.mp hverdict
      obtain ⟨before, marker, after, rfl, -, hfile⟩ := (anyM_eq_iff (by simp)).mp hany
      have hnearest := hp.isNearest ⟨marker, by simp, hfile⟩
      refine ⟨fun p => ⟨fun heq => ?_, fun hp => congrArg some (hnearest.unique hp)⟩, iff_of_false nofun ?_⟩
      · obtain rfl := Option.some.inj heq
        exact hnearest
      · exact fun hnone => hnone ⟨q, hnearest.climbed, hnearest.marked⟩

/-- How a search fails: its start or its boundary cannot be resolved, or it comes to a directory where the path to
a marker is too long to be looked at, and none of the markers before that is there. -/
inductive Fails (t : Tree) (start : Path) (markers : List String) (boundary : Option Path) : Breach → Prop where
  | start {b : Breach} (h : t.resolveGiven start = .error b) : Fails t start markers boundary b
  | boundary {b : Breach} {here above : Path} (hstart : t.resolveGiven start = .ok here)
      (habove : boundary = some above) (h : t.resolveGiven above = .error b) : Fails t start markers boundary b
  | looking {here p : Path} {limit : Option Path} {before after : List String} {marker : String}
      (hbounds : t.Bounds start boundary here limit) (hcomes : t.ComesTo markers here limit p)
      (hmarkers : markers = before ++ marker :: after)
      (hbefore : ∀ other ∈ before, t.isMarkedBy p other = .ok false) (hnul : '\x00' ∉ marker.toList)
      (hlong : t.stat (p / Path.ofString marker) = .error .nameTooLong) :
      Fails t start markers boundary .fileSystem

/-- **How a search fails**, exactly. -/
theorem markerRoot_eq_error :
    t.markerRoot start markers boundary = .error b ↔ t.Fails start markers boundary b := by
  constructor
  · intro h
    rcases bind_eq_error.mp h with hstart | ⟨here, hhere, h⟩
    · exact .start hstart
    · rcases bind_eq_error.mp h with hlimit | ⟨limit, hlimit, h⟩
      · obtain ⟨above, habove, hfails⟩ := optionMapM_eq_error.mp hlimit
        exact .boundary hhere habove hfails
      -- the climb itself fails at a directory that it comes to, at the first marker that cannot be looked
      -- at
      · obtain ⟨p, hp, hverdict⟩ := (markerAmong_ancestorsOf (by simp)).mp h
        obtain ⟨before, marker, after, hmarkers, hbefore, hmarker⟩ :=
          (anyM_eq_iff (by simp)).mp (verdict_eq_error.mp hverdict)
        obtain ⟨hnul, rfl, hlong⟩ := isMarkedBy_eq_error.mp hmarker
        exact .looking ⟨hhere, hlimit⟩ hp hmarkers hbefore hnul hlong
  · intro h
    cases h with
    | start h => exact bind_eq_error.mpr (.inl h)
    | boundary hstart habove h =>
        exact bind_eq_error.mpr (.inr ⟨_, hstart,
          bind_eq_error.mpr (.inl (optionMapM_eq_error.mpr ⟨_, habove, h⟩))⟩)
    | looking hbounds hcomes hmarkers hbefore hnul hlong =>
        rw [hbounds.markerRoot_eq, markerAmong_ancestorsOf (by simp)]
        refine ⟨_, hcomes, verdict_eq_error.mpr ((anyM_eq_iff (by simp)).mpr ⟨_, _, _, hmarkers, hbefore, ?_⟩)⟩
        exact isMarkedBy_eq_error.mpr ⟨hnul, rfl, hlong⟩

/-- **A search returns** if no path that it may look at is too long. -/
theorem Bounds.exists_found (hbounds : t.Bounds start boundary here limit)
    (hlook : ∀ p, IsClimbed here limit p → ∀ marker ∈ markers,
      t.stat (p / Path.ofString marker) ≠ .error .nameTooLong) :
    ∃ found, t.markerRoot start markers boundary = .ok found := by
  cases h : t.markerRoot start markers boundary with
  | ok found => exact ⟨found, rfl⟩
  | error b =>
      exfalso
      rw [hbounds.markerRoot_eq, markerAmong_ancestorsOf (by simp)] at h
      obtain ⟨p, hp, hverdict⟩ := h
      obtain ⟨before, marker, after, rfl, -, hmarker⟩ := (anyM_eq_iff (by simp)).mp (verdict_eq_error.mp hverdict)
      exact hlook p hp.climbed marker (by simp) (isMarkedBy_eq_error.mp hmarker).2.2

/-- **A boundary above the start is its own limit**, and the start its own place: if the start can be followed to
its end, every directory at or above that is its own resolution. -/
theorem bounds_of_follows (hsound : t.IsSound) {n : Nat} {place above : Place}
    (hstart : ∀ c ∈ start.parts, IsComponent c) (h : t.Follows n (t.startOf start) start.parts place)
    (habove : above <+: place) :
    t.Bounds start (some (Path.rooted above)) (Path.rooted place) (some (Path.rooted above)) := by
  have hreal : t.IsReal place := h.isReal hsound (hsound.isReal_startOf start)
  have hrealAbove : t.IsReal above :=
    ⟨fun c hc => hreal.names c (habove.subset hc), hreal.linkFree.before habove⟩
  have hcomponents := h.isComponent hsound hstart
  have hown : t.resolveGiven (Path.rooted above) = .ok (Path.rooted above) :=
    resolveGiven_eq_ok.mpr ⟨fun c hc => (hcomponents c (habove.subset hc)).2, resolve_of_isReal hsound hrealAbove⟩
  refine ⟨resolveGiven_eq_ok.mpr ⟨fun c hc => (hstart c hc).2, resolve_of_follows hsound h⟩, ?_⟩
  rw [Option.mapM_some, hown]
  rfl

end Tree

end Files

open Files Files.Tree

namespace Analyzer

variable {task : Task} {t : Tree} {markers : List String} {parts : List String}

/-! ## The pattern for packages -/

theorem packagesBelow_eq_join : packagesBelow parts = Text.join "/" ("." :: (parts ++ ["..."])) := by
  unfold packagesBelow
  cases parts with
  | nil => rfl
  | cons first rest =>
      rw [if_neg (by simp), Path.relativeText_eq_join (List.cons_ne_nil _ _), List.cons_append,
        Text.join_cons_cons, ← List.cons_append, Text.join_concat (List.cons_ne_nil _ _)]
      simp only [String.append_assoc]
      rfl

/-- **The pattern read as a path**: the components below the module, and three dots for whatever lies there. -/
theorem ofString_packagesBelow (hwritable : Writable parts) (hnames : ∀ c ∈ parts, IsName c) :
    Path.ofString (packagesBelow parts) = ⟨.here, parts ++ ["..."]⟩ := by
  have hall : Writable ("." :: (parts ++ ["..."])) :=
    List.forall_mem_cons.mpr ⟨by decide, hwritable.append (List.forall_mem_singleton.mpr (by decide))⟩
  have hparts : Path.partsOf (packagesBelow parts) = parts ++ ["..."] := by
    rw [Path.partsOf, packagesBelow_eq_join]
    have hsplit := Text.splitOn_join hall (List.cons_ne_nil _ _)
    rw [show String.singleton '/' = "/" from rfl] at hsplit
    -- the dot in front is worked out when the text is read as a path, all other parts are kept
    rw [hsplit, Path.counted, List.filter_cons_of_neg (by decide), List.filter_append]
    rw [List.filter_eq_self.mpr fun c hc => by simp [(hnames c hc).1, (hnames c hc).2.1]]
    rfl
  have hanchor : Path.anchorOf (packagesBelow parts).toList = .here := by
    unfold packagesBelow
    split
    · rfl
    · rw [String.toList_append, String.toList_append, List.append_assoc]
      rfl
  rw [Path.ofString, hanchor, hparts]

/-- **The directory of the pattern leads back** from the module to the project. -/
theorem packagePattern_of_isWithin (hwritable : Writable task.projectRoot.parts)
    (hnames : ∀ c ∈ task.projectRoot.parts, IsName c)
    (habove : task.projectRoot.isWithin task.toolRoot = true) :
    ∃ pattern, packagePattern task = .ok pattern ∧
      task.toolRoot / (Path.ofString pattern).parent = task.projectRoot := by
  obtain ⟨hanchor, below, hbelow⟩ := Path.isWithin_iff.mp habove
  have hrelative : task.projectRoot.relativeTo? task.toolRoot = some below :=
    Path.relativeTo?_eq_some.mpr ⟨hanchor, hbelow.symm⟩
  have hsub : ∀ c ∈ below, c ∈ task.projectRoot.parts := by
    intro c hc
    rw [← hbelow]
    exact List.mem_append_right _ hc
  have hpath := ofString_packagesBelow (fun c hc => hwritable c (hsub c hc)) fun c hc => hnames c (hsub c hc)
  refine ⟨packagesBelow below, by rw [packagePattern, hrelative], ?_⟩
  rw [hpath, Path.parent, List.dropLast_concat]
  show (⟨task.toolRoot.anchor, task.toolRoot.parts ++ below⟩ : Path) = task.projectRoot
  rw [hbelow, ← hanchor]

/-! ## The root of a module -/

/-- A tool that is run from the root of a module is given what the search finds. -/
theorem markerRoot_of_locateRoot {a : Analyzer} {root found : Path} {limits : ResourceLimits}
    (hparents : a.searchesParents = true) (h : a.locateRoot t root limits = .ok found) :
    t.markerRoot root a.markers none = .ok (some found) := by
  unfold locateRoot at h
  rw [if_pos hparents] at h
  split at h
  · cases h
  · next place hplace =>
    obtain rfl := pure_eq_ok.mp h
    exact hplace
  · cases h

/-- **The root of a module, and the way back from it.** A search that returns has found the nearest directory with
a marker of those that it may look at, or nothing if there is none. It returns if no path that it may look at is
too long, and how it fails is said exactly. A start that can be followed to its end is searched from
there, with any directory at or above it for a limit. From the root that is found for a project at a canonical
path, the directory of the pattern for packages leads to the project again. -/
theorem markerRoot_spec (t : Tree) (start : Path) (markers : List String) (boundary : Option Path) :
    (∀ here limit, t.Bounds start boundary here limit →
      (∀ found, t.markerRoot start markers boundary = .ok found →
        (∀ p, found = some p ↔ t.IsNearest markers here limit p) ∧
          (found = none ↔
            ¬ ∃ p, IsClimbed here limit p ∧ ∃ marker ∈ markers, t.isMarkedBy p marker = .ok true)) ∧
      ((∀ p, IsClimbed here limit p → ∀ marker ∈ markers,
          t.stat (p / Path.ofString marker) ≠ .error .nameTooLong) →
        ∃ found, t.markerRoot start markers boundary = .ok found) ∧
      ∀ p marker, IsClimbed here limit p → IsFileName marker →
        (t.isMarkedBy p marker = .ok true ↔ t.Contains p marker)) ∧
    (∀ b, t.markerRoot start markers boundary = .error b ↔ t.Fails start markers boundary b) ∧
    (t.IsSound → (∀ c ∈ start.parts, IsComponent c) → ∀ n place above,
      t.Follows n (t.startOf start) start.parts place → above <+: place →
        t.Bounds start (some (Path.rooted above)) (Path.rooted place) (some (Path.rooted above))) ∧
    ∀ (task : Task) (rootText : String), task.projectRoot = Path.ofString rootText →
      t.resolve task.projectRoot = .ok task.projectRoot →
      t.markerRoot task.projectRoot markers none = .ok (some task.toolRoot) →
        ∃ pattern, packagePattern task = .ok pattern ∧
          task.toolRoot / (Path.ofString pattern).parent = task.projectRoot := by
  refine ⟨fun here limit hbounds => ⟨fun found h => hbounds.found_iff h, hbounds.exists_found, ?_⟩,
    fun b => markerRoot_eq_error, ?_, ?_⟩
  · intro p marker hp hname
    exact isMarkedBy_eq_true hname
  · intro hsound hstart n place above h habove
    exact bounds_of_follows hsound hstart h habove
  · intro task rootText htext hcanonical hfound
    obtain ⟨here, hhere, habove⟩ := isWithin_of_markerRoot hfound
    obtain rfl := Except.ok.inj (hcanonical.symm.trans hhere)
    refine packagePattern_of_isWithin ?_ ?_ habove
    · rw [htext]
      exact Path.writable_ofString rootText
    · exact t.isName_of_resolve hcanonical

/-- A module whose root holds the file that marks it, two directories above the start, which is also the project
that a tool is run on. The boundary is the root itself. -/
theorem markerRoot_spec_nested :
    let t := besideOutside [("go.mod", .file (.text "module x") false),
      ("internal", .directory [("auth", .directory [("auth.go", .file (.text "package auth") false)])])]
    let project := Path.rooted ["project", "internal", "auth"]
    let root := Path.rooted ["project"]
    let task : Task := { (default : Task) with projectRoot := project, toolRoot := root }
    t.Bounds project (some root) project (some root) ∧
      t.markerRoot project goMarkers (some root) = .ok (some root) ∧
      t.IsNearest goMarkers project (some root) root ∧ t.Contains root "go.mod" ∧
      (∀ b, ¬ t.Fails project goMarkers (some root) b) ∧
      t.markerRoot project goMarkers none = .ok (some root) ∧
      packagePattern task = .ok "./internal/auth/..." ∧
      root / (Path.ofString "./internal/auth/...").parent = project := by
  intro t project root task
  have hsound : t.IsSound := ⟨by decide, by decide, by decide, by decide⟩
  have hfound : t.markerRoot project goMarkers (some root) = .ok (some root) := by decide +kernel
  have htext : project = Path.ofString "/project/internal/auth" := by decide +kernel
  have hcomponents : ∀ c ∈ project.parts, IsComponent c := by
    rw [htext]
    exact fun c hc => isComponent_of_mem_ofString (by decide) hc
  have hfollows : t.Follows 0 [] ["project", "internal", "auth"] ["project", "internal", "auth"] :=
    .down (by decide) (by decide +kernel)
      (.down (by decide) (by decide +kernel) (.down (by decide) (by decide +kernel) .done))
  obtain ⟨hsearch, hfails, hown, hback⟩ := markerRoot_spec t project goMarkers (some root)
  have hbounds : t.Bounds project (some root) project (some root) :=
    hown hsound hcomponents 0 _ ["project"] hfollows (by decide)
  obtain ⟨hreturns, -, hcontains⟩ := hsearch _ _ hbounds
  have hnearest := ((hreturns _ hfound).1 root).mp rfl
  have hmarked : t.isMarkedBy root "go.mod" = .ok true := by decide +kernel
  have hopen : t.markerRoot project goMarkers none = .ok (some root) := by decide +kernel
  obtain ⟨pattern, hpattern, hjoined⟩ := hback task _ htext (by decide +kernel) hopen
  obtain rfl : "./internal/auth/..." = pattern :=
    Except.ok.inj ((show packagePattern task = _ by decide +kernel).symm.trans hpattern)
  refine ⟨hbounds, hfound, hnearest, (hcontains _ _ hnearest.climbed (by decide)).mp hmarked, ?_, hopen,
    hpattern, hjoined⟩
  intro b hb
  rw [(hfails b).mpr hb] at hfound
  exact nomatch hfound

/-- **Two searches that go astray.** From a directory that is not there and whose name is too long to be looked up,
the search fails, though the directory above holds the marker. And where the start leads through a loop of links,
its resolution still holds a link: a boundary right above it leads elsewhere, so the search climbs past it. -/
theorem markerRoot_astray :
    let marker := ("go.mod", Node.file (.text "module x") false)
    let project := Path.rooted ["project"]
    (let t := besideOutside [marker]
      let start := Path.rooted ["project", String.ofList (List.replicate 256 'x')]
      t.IsSound ∧ t.Bounds start none start none ∧ t.IsNearest goMarkers start none project ∧
        t.markerRoot start goMarkers none = .error .fileSystem) ∧
      let t := besideOutside [marker, ("loop", .link "loop"), ("other", .directory [("y", .directory [])]),
        ("x", .link "other")]
      let start := Path.ofString "/project/loop/../x/y"
      let boundary := Path.rooted ["project", "x"]
      t.IsSound ∧ t.resolve start = .ok (boundary.child "y") ∧
        t.markerRoot start goMarkers (some boundary) = .ok (some project) ∧
        boundary.isWithin project = true ∧ boundary ≠ project := by
  intro marker project
  constructor
  · intro t start
    have hnul : ∀ c ∈ start.parts, '\x00' ∉ c.toList := by
      refine List.forall_mem_cons.mpr ⟨by decide, List.forall_mem_singleton.mpr fun hmem => ?_⟩
      rw [String.toList_ofList] at hmem
      exact absurd (List.eq_of_mem_replicate hmem) (by decide)
    have hbounds : t.Bounds start none start none := ⟨resolveGiven_eq_ok.mpr ⟨hnul, by decide +kernel⟩, rfl⟩
    have hlost : t.isMarkedBy start "go.mod" = .error .fileSystem := by decide +kernel
    have hfound : t.isMarkedBy project "go.mod" = .ok true := by decide +kernel
    have hnearest : t.IsNearest goMarkers start none project := by
      refine ⟨⟨by decide +kernel, by simp⟩, ⟨"go.mod", by decide, hfound⟩, ?_⟩
      -- the start itself has no marker, and whatever else lies above it lies above the project
      rintro q hq ⟨other, hother, hmarked⟩
      obtain rfl := List.mem_singleton.mp hother
      rcases (Path.isWithin_child (p := project)).mp hq.above with rfl | habove
      · exact nomatch hlost.symm.trans hmarked
      · exact habove
    obtain ⟨hmarker, -, hlong⟩ := isMarkedBy_eq_error.mp hlost
    have hfirst : goMarkers = [] ++ "go.mod" :: [] := rfl
    have hfails : t.Fails start goMarkers none .fileSystem :=
      .looking hbounds comesTo_self hfirst (List.forall_mem_nil _) hmarker hlong
    exact ⟨⟨by decide, by decide, by decide, by decide⟩, hbounds, hnearest, markerRoot_eq_error.mpr hfails⟩
  · intro t start boundary
    have hresolve : t.resolve start = .ok (boundary.child "y") := by decide +kernel
    have hbounds : t.Bounds start (some boundary) (boundary.child "y") (some (Path.rooted ["project", "other"])) :=
      ⟨resolveGiven_eq_ok.mpr ⟨by decide +kernel, hresolve⟩, by decide +kernel⟩
    refine ⟨⟨by decide, by decide, by decide, by decide⟩, hresolve, ?_, by decide, by decide⟩
    rw [hbounds.markerRoot_eq]
    decide +kernel

end Analyzer

end Assay
