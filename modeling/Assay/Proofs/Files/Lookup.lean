import Mathlib.Data.List.Basic
import Assay.Files.Sound
import Assay.Proofs.Files.Resolve

/-!
# Looking up places

In a sound tree, the path to a place that no link stands on the way to leads to that place and to
nothing else: the lookup finds what is there (`stat_rooted`), and is not sent elsewhere when it asks for
a link (`linkAt?_eq`).
-/

namespace Assay.Files

/-! ## Nodes -/

namespace Node

@[simp] theorem at?_nil (n : Node) : n.at? [] = some n := rfl

theorem at?_append (before after : Place) (n : Node) :
    n.at? (before ++ after) = (n.at? before).bind (at? after) := by
  induction before generalizing n with
  | nil => rfl
  | cons name before ih =>
      rw [List.cons_append, at?, at?]
      cases n.child? name with
      | none => rfl
      | some m => exact ih m

theorem mem_of_child? {n m : Node} {name : String} (h : n.child? name = some m) :
    ∃ entries, n = .directory entries ∧ (name, m) ∈ entries := by
  cases n with
  | file content executable => simp [child?] at h
  | link target => simp [child?] at h
  | directory entries =>
      obtain ⟨⟨key, value⟩, hfind, rfl⟩ := Option.map_eq_some_iff.mp h
      have hkey : key = name := by simpa using List.find?_some hfind
      exact ⟨entries, rfl, hkey ▸ List.mem_of_find?_eq_some hfind⟩

/-- What has something below it is a directory. -/
theorem isDirectory_of_at? {before after : Place} {name : String} {n m : Node}
    (h : n.at? (before ++ name :: after) = some m) :
    ∃ entries, n.at? before = some (.directory entries) := by
  rw [at?_append] at h
  obtain ⟨d, hd, hm⟩ := Option.bind_eq_some_iff.mp h
  rw [at?] at hm
  split at hm
  · next child hchild =>
    obtain ⟨entries, rfl, -⟩ := mem_of_child? hchild
    exact ⟨entries, hd⟩
  · simp at hm

theorem areSound_of_mem {entries : List (String × Node)} (h : areSound entries = true)
    {name : String} {n : Node} (hn : (name, n) ∈ entries) :
    isEntryName name = true ∧ n.isSound = true := by
  induction entries with
  | nil => simp at hn
  | cons e entries ih =>
      obtain ⟨key, value⟩ := e
      simp only [areSound, Bool.and_eq_true] at h
      rcases List.mem_cons.mp hn with heq | hn
      · obtain ⟨rfl, rfl⟩ := Prod.mk.inj heq
        exact h.1
      · exact ih h.2 hn

/-- Below a sound node everything is sound, and the names on the way are names of entries. -/
theorem isSound_of_at? {place : Place} {n m : Node} (h : n.isSound = true)
    (hm : n.at? place = some m) : m.isSound = true ∧ ∀ c ∈ place, isEntryName c = true := by
  induction place generalizing n with
  | nil =>
      obtain rfl : n = m := Option.some.inj hm
      exact ⟨h, by simp⟩
  | cons name place ih =>
      rw [at?] at hm
      split at hm
      · next child hchild =>
        obtain ⟨entries, rfl, hmem⟩ := mem_of_child? hchild
        rw [isSound, Bool.and_eq_true] at h
        obtain ⟨hname, hsound⟩ := areSound_of_mem h.2 hmem
        obtain ⟨hm, hplace⟩ := ih hsound hm
        exact ⟨hm, List.forall_mem_cons.mpr ⟨hname, hplace⟩⟩
      · simp at hm

end Node

theorem isEntryName_iff {s : String} : isEntryName s = true ↔
    s ≠ "" ∧ s ≠ "." ∧ s ≠ ".." ∧ '/' ∉ s.toList ∧ '\x00' ∉ s.toList ∧
      s.utf8ByteSize ≤ Tree.maxNameBytes := by
  simp [isEntryName, and_assoc]

namespace Tree

variable {t : Tree}

/-! ## Places without links -/

theorem target?_eq_some {place : Place} {target : String} :
    t.target? place = some target ↔ t.top.at? place = some (.link target) := by
  unfold target?
  constructor
  · intro h
    obtain ⟨n, hn, htarget⟩ := Option.bind_eq_some_iff.mp h
    cases n with
    | link s => rw [hn, Option.some.inj htarget]
    | file content executable => simp [Node.target?] at htarget
    | directory entries => simp [Node.target?] at htarget
  · intro h
    rw [h]
    rfl

theorem IsSound.workingDirectory_directory (hsound : t.IsSound) :
    ∃ entries, t.top.at? t.workingDirectory = some (.directory entries) := by
  have h := hsound.workingDirectory
  cases hn : t.top.at? t.workingDirectory with
  | none => simp [hn] at h
  | some n =>
      cases n with
      | directory entries => exact ⟨entries, rfl⟩
      | file content executable => simp [hn, Node.isDirectory] at h
      | link target => simp [hn, Node.isDirectory] at h

/-- No link stands on the way to something that is there. -/
theorem target?_eq_none_of_at? {before after : Place} {name : String} {n : Node}
    (h : t.top.at? (before ++ name :: after) = some n) : t.target? before = none := by
  obtain ⟨entries, hentries⟩ := Node.isDirectory_of_at? h
  rw [target?, hentries]
  rfl

theorem IsSound.target?_nil (hsound : t.IsSound) : t.target? [] = none := by
  obtain ⟨entries, h⟩ := hsound.workingDirectory_directory
  cases hplace : t.workingDirectory with
  | nil =>
      rw [hplace] at h
      rw [target?, h]
      rfl
  | cons name rest =>
      have h : t.top.at? ([] ++ name :: rest) = some (.directory entries) := by rw [← h, hplace]; rfl
      exact target?_eq_none_of_at? h

theorem IsSound.linkFree_nil (hsound : t.IsSound) : t.LinkFree [] := by
  intro before hbefore
  rw [List.prefix_nil.mp hbefore]
  exact hsound.target?_nil

theorem LinkFree.before {before place : Place} (h : t.LinkFree place) (hb : before <+: place) :
    t.LinkFree before := fun _ hq => h _ (hq.trans hb)

theorem LinkFree.snoc {here : Place} {name : String} (h : t.LinkFree here)
    (hname : t.target? (here ++ [name]) = none) : t.LinkFree (here ++ [name]) := by
  intro before hbefore
  rcases List.prefix_concat_iff.mp hbefore with rfl | hbefore
  · exact hname
  · exact h before hbefore

/-! ## Lookups -/

/-- Where there is no such entry a lookup fails, not because of a loop. -/
theorem walkTo_of_none {last : Bool} {follow : Place → List String → Except StatFault Place} {here : Place}
    {name : String} {rest : List String} (hname : IsName name) (hhere : (t.top.at? here).isSome = true)
    (hnone : t.top.at? (here ++ [name]) = none) :
    ∃ e, e ≠ .loop ∧ t.walkTo last follow here (name :: rest) = .error e := by
  obtain ⟨n, hn⟩ := Option.isSome_iff_exists.mp hhere
  rw [walkTo, hn]
  cases n with
  | file content executable => exact ⟨.notDirectory, by simp, rfl⟩
  | link target => exact ⟨.notDirectory, by simp, rfl⟩
  | directory entries =>
      dsimp only
      rw [if_neg hname.not_skip, if_neg hname.not_up, hnone]
      split
      · exact ⟨.nameTooLong, by simp, rfl⟩
      · exact ⟨.missing, by simp, rfl⟩

/-- A lookup goes on at an entry that is no link. -/
theorem walkTo_pass {last : Bool} {follow : Place → List String → Except StatFault Place} {here : Place}
    {name : String} {rest : List String} {m : Node} (hname : IsName name)
    (hfits : name.utf8ByteSize ≤ maxNameBytes) (hm : t.top.at? (here ++ [name]) = some m)
    (hplain : m.target? = none) :
    t.walkTo last follow here (name :: rest) = t.walkTo last follow (here ++ [name]) rest := by
  obtain ⟨entries, hentries⟩ := Node.isDirectory_of_at? hm
  rw [walkTo, hentries]
  dsimp only
  rw [if_neg hname.not_skip, if_neg hname.not_up, if_neg (Nat.not_lt.mpr hfits), hm]
  cases m with
  | link target => exact nomatch hplain
  | file | directory => rfl

/-- The last entry is what a lookup leads to, if no link is to be followed there. -/
theorem walkTo_last {follow : Place → List String → Except StatFault Place} {here : Place} {name : String}
    {m : Node} (hname : IsName name) (hfits : name.utf8ByteSize ≤ maxNameBytes)
    (hm : t.top.at? (here ++ [name]) = some m) :
    t.walkTo false follow here [name] = .ok (here ++ [name]) := by
  obtain ⟨entries, hentries⟩ := Node.isDirectory_of_at? hm
  rw [walkTo, hentries]
  dsimp only
  rw [if_neg hname.not_skip, if_neg hname.not_up, if_neg (Nat.not_lt.mpr hfits), hm]
  cases m <;> rfl

/-- **A lookup that meets no link before its end** leads to where its components say if something is
there, and fails otherwise, not because of a loop. The induction is on the components to follow. -/
theorem walkTo_of_linkFree (hsound : t.IsSound) {last : Bool}
    {follow : Place → List String → Except StatFault Place} {here : Place} {todo : List String}
    (hnames : ∀ c ∈ todo, IsName c) (hhere : (t.top.at? here).isSome = true)
    (hway : t.LinkFree (here ++ todo.dropLast)) (hend : last = true → t.target? (here ++ todo) = none) :
    (t.walkTo last follow here todo = .ok (here ++ todo) ∧ (t.top.at? (here ++ todo)).isSome = true) ∨
      (∃ e, e ≠ .loop ∧ t.walkTo last follow here todo = .error e) ∧
        t.top.at? (here ++ todo) = none := by
  induction todo generalizing here with
  | nil => exact .inl ⟨by rw [walkTo, List.append_nil], by rwa [List.append_nil]⟩
  | cons name rest ih =>
      have hsplit : here ++ name :: rest = (here ++ [name]) ++ rest := by simp
      obtain ⟨hname, hrest⟩ := List.forall_mem_cons.mp hnames
      cases hnext : t.top.at? (here ++ [name]) with
      | none =>
          refine .inr ⟨walkTo_of_none hname hhere hnext, ?_⟩
          rw [hsplit, Node.at?_append, hnext]
          rfl
      | some m =>
          have hfits : name.utf8ByteSize ≤ maxNameBytes := by
            have hentry := (Node.isSound_of_at? hsound.top hnext).2 name (by simp)
            exact (isEntryName_iff.mp hentry).2.2.2.2.2
          have htarget : t.target? (here ++ [name]) = m.target? := by rw [target?, hnext]; rfl
          cases hm : m.target? with
          | none =>
              have hway' : t.LinkFree ((here ++ [name]) ++ rest.dropLast) := by
                cases rest with
                | nil => simpa using hway.snoc (by simpa using htarget.trans hm)
                | cons next rest => simpa using hway
              rw [walkTo_pass hname hfits hnext hm, hsplit]
              exact ih hrest (by rw [hnext]; rfl) hway' (by rwa [← hsplit])
          | some target =>
              -- a link stands at the end only, where it is not followed
              have hlink : t.target? (here ++ [name]) ≠ none := by simp [htarget, hm]
              cases rest with
              | cons next rest => exact absurd (hway _ ⟨(next :: rest).dropLast, by simp⟩) hlink
              | nil =>
                  obtain rfl : last = false := Bool.eq_false_iff.mpr fun h => hlink (hend h)
                  exact .inl ⟨walkTo_last hname hfits hnext, by rw [hnext]; rfl⟩

/-- A path that is too long is not looked up at all. -/
theorem find_of_not_fits {p : Path} (h : ¬ p.Fits) (last : Bool) : t.find last p = .error .nameTooLong := by
  rw [find, if_pos (Nat.le_of_not_lt h)]

/-- What a lookup leads to is what is found. -/
theorem stat_eq_ok {p : Path} {n : Node} :
    t.stat p = .ok n ↔ ∃ place, t.find true p = .ok place ∧ t.top.at? place = some n := by
  unfold stat
  cases t.find true p with
  | error fault => simp
  | ok place =>
      dsimp only
      cases h : t.top.at? place <;> simp [h]

/-- What can be looked at is short enough. -/
theorem fits_of_stat {p : Path} {n : Node} (h : t.stat p = .ok n) : p.Fits := by
  by_contra hlong
  rw [stat, find_of_not_fits hlong] at h
  exact nomatch h

theorem isSound_of_stat (hsound : t.IsSound) {p : Path} {n : Node} (h : t.stat p = .ok n) :
    n.isSound = true := by
  obtain ⟨place, -, hn⟩ := stat_eq_ok.mp h
  exact (Node.isSound_of_at? hsound.top hn).1

/-- The lookup of a path, however many links it may follow. -/
theorem find_of_linkFree (hsound : t.IsSound) (last : Bool) {place : Place} (hnames : ∀ c ∈ place, IsName c)
    (hway : t.LinkFree place.dropLast) (hend : last = true → t.target? place = none) :
    (t.find last (Path.rooted place) = .ok place ∧ Fits place ∧ (t.top.at? place).isSome = true) ∨
      (∃ e, e ≠ .loop ∧ t.find last (Path.rooted place) = .error e) ∧
        ¬ (Fits place ∧ (t.top.at? place).isSome = true) := by
  unfold find Fits Path.Fits
  by_cases hfits : maxPathBytes ≤ (Path.rooted place).toString.utf8ByteSize
  · rw [if_pos hfits]
    exact .inr ⟨⟨.nameTooLong, by simp, rfl⟩, fun h => absurd h.1 (Nat.not_lt.mpr hfits)⟩
  · rw [if_neg hfits]
    have hwalk := @walkTo_of_linkFree t hsound last (t.locate last 39) [] place hnames rfl hway hend
    rw [List.nil_append] at hwalk
    rcases hwalk with ⟨hok, hsome⟩ | ⟨herror, hnone⟩
    · exact .inl ⟨hok, Nat.lt_of_not_le hfits, hsome⟩
    · exact .inr ⟨herror, fun h => by simp [hnone] at h⟩

/-- **A link is found where it stands** if no other one stands on the way and its path can be looked
at. -/
theorem linkAt?_eq (hsound : t.IsSound) {here : Place} {name : String}
    (hnames : ∀ c ∈ here ++ [name], IsName c) (hfree : t.LinkFree here) :
    t.linkAt? (here ++ [name]) = if Fits (here ++ [name]) then t.target? (here ++ [name]) else none := by
  have hway : t.LinkFree (here ++ [name]).dropLast := by rwa [List.dropLast_concat]
  unfold linkAt?
  rcases find_of_linkFree hsound false hnames hway (by simp) with
    ⟨hok, hfits, hsome⟩ | ⟨⟨e, -, herror⟩, hnone⟩
  · obtain ⟨n, hn⟩ := Option.isSome_iff_exists.mp hsome
    rw [hok, if_pos hfits, target?]
    dsimp only
    rw [hn]
    cases n <;> rfl
  · rw [herror]
    dsimp only
    split
    · next hfits =>
      rw [target?, Option.not_isSome_iff_eq_none.mp fun h => hnone ⟨hfits, h⟩]
      rfl
    · rfl

/-- **What a path without links leads to** is what stands at its place. -/
theorem stat_rooted (hsound : t.IsSound) {place : Place} (hnames : ∀ c ∈ place, IsName c)
    (hfree : t.LinkFree place) {n : Node} :
    t.stat (Path.rooted place) = .ok n ↔ Fits place ∧ t.top.at? place = some n := by
  have hway : t.LinkFree place.dropLast := hfree.before (List.dropLast_prefix place)
  unfold stat
  rcases find_of_linkFree hsound true hnames hway (fun _ => hfree _ (List.prefix_refl _)) with
    ⟨hok, hfits, hsome⟩ | ⟨⟨e, -, herror⟩, hnone⟩
  · obtain ⟨m, hm⟩ := Option.isSome_iff_exists.mp hsome
    simp [hok, hm, hfits]
  · rw [herror]
    constructor
    · simp
    · rintro ⟨hfits, hn⟩
      exact absurd ⟨hfits, by rw [hn]; rfl⟩ hnone

/-- A path without links runs into no loop. -/
theorem stat_rooted_ne_loop (hsound : t.IsSound) {place : Place} (hnames : ∀ c ∈ place, IsName c)
    (hfree : t.LinkFree place) : t.stat (Path.rooted place) ≠ .error .loop := by
  have hway : t.LinkFree place.dropLast := hfree.before (List.dropLast_prefix place)
  unfold stat
  rcases find_of_linkFree hsound true hnames hway (fun _ => hfree _ (List.prefix_refl _)) with
    ⟨hok, -, hsome⟩ | ⟨⟨e, hne, herror⟩, -⟩
  · obtain ⟨m, hm⟩ := Option.isSome_iff_exists.mp hsome
    simp [hok, hm]
  · simpa [herror] using hne

/-! ## Components of what is found -/

/-- A piece of a path that a lookup can take: dots, nothing, or the name of an entry. -/
def IsStep (c : String) : Prop := c ∈ ["", ".", ".."] ∨ isEntryName c = true

/-- **A lookup finds its way by names of entries** and by pieces without a name, if every lookup that a link
is handed to does. The induction is on the pieces to follow. -/
theorem steps_of_walkTo (hsound : t.IsSound) {last : Bool}
    {follow : Place → List String → Except StatFault Place}
    (hfollow : ∀ start todo place, follow start todo = .ok place → ∀ c ∈ todo, IsStep c)
    {here place : Place} {todo : List String} (h : t.walkTo last follow here todo = .ok place) :
    ∀ c ∈ todo, IsStep c := by
  induction todo generalizing here with
  | nil => exact nofun
  | cons name rest ih =>
      rw [walkTo] at h
      rw [List.forall_mem_cons]
      split at h
      · split at h
        · next hskip => exact ⟨.inl (by simp_all; tauto), ih h⟩
        split at h
        · next hdots => exact ⟨.inl (by simp_all), ih h⟩
        · split at h
          · simp at h
          · have hname {m : Node} (hm : t.top.at? (here ++ [name]) = some m) : IsStep name :=
              .inr ((Node.isSound_of_at? hsound.top hm).2 name (by simp))
            split at h
            · simp at h
            · next target hlink =>
              refine ⟨hname hlink, ?_⟩
              split at h
              · next hend =>
                -- the link at the end is not followed
                have hrest : rest = [] := by simp_all
                rw [hrest]
                exact nofun
              · split at h
                · simp at h
                · exact fun c hc => hfollow _ _ _ h c (List.mem_append_right _ hc)
            · next hm => exact ⟨hname hm, ih h⟩
      · simp at h
      · simp at h

theorem steps_of_locate (hsound : t.IsSound) {last : Bool} {links : Nat} {here place : Place}
    {todo : List String} (h : t.locate last links here todo = .ok place) : ∀ c ∈ todo, IsStep c := by
  induction links generalizing here place todo with
  | zero => exact steps_of_walkTo hsound (fun _ _ _ h => by simp at h) h
  | succ links ih => exact steps_of_walkTo hsound (fun _ _ _ h => ih h) h

/-- A lookup can take the components of a path that leads to something. -/
theorem steps_of_stat (hsound : t.IsSound) {p : Path} {n : Node} (h : t.stat p = .ok n) :
    ∀ c ∈ p.parts, IsStep c := by
  unfold stat at h
  split at h
  · simp at h
  · next place hfind =>
    unfold find at hfind
    split at hfind
    · simp at hfind
    · exact steps_of_locate hsound hfind

end Tree

end Assay.Files
