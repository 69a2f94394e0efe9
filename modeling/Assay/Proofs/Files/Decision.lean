import Assay.Proofs.Files.Acyclic
import Assay.Proofs.Files.Root

/-!
# How the check of a path ends

A check ends with a canonical path, with a refusal of the input, or it breaks off. `checkPath_ends` and
`checkProjectRoot_ends` say exactly when it breaks off. The check of a path turns whatever keeps the path
itself from being resolved into a refusal, and breaks off only where the roots of its policy are resolved, the
canonical path is looked at, or a limit that cannot be written out is exceeded (`Breaks`). The check of the
root of a project resolves its path before that guard, so an unknown home directory and a loop of links break
it off as well (`Interrupts`), see `checkProjectRoot_loop`. In a tree without cycles of links little of this is
left (`checks_end`).
-/

namespace Assay.Files.Tree

variable {t : Tree} {p q : Path} {policy : PathPolicy} {raw : String} {b : Breach}

/-! ## Ends of a computation -/

/-- Every problem that the computation ends with is a refusal of a path, which is one of the input, and these
are the breaches that it ends with. -/
structure Ends {α : Type} (x : Except Failure α) (breaks : Breach → Prop) : Prop where
  refuses : ∀ problem, x = .error (.problem problem) →
    problem.isInput = true ∧ ∃ fault : PathFault, problem = fault.problem
  breaks : ∀ b, x = .error (.breach b) ↔ breaks b

theorem Ends.of_breach {α : Type} {x : Except Failure α} (h : ∀ problem, x ≠ .error (.problem problem)) :
    Ends x fun b => x = .error (.breach b) :=
  ⟨fun problem hx => absurd hx (h problem), fun _ => Iff.rfl⟩

theorem Decides.ends {α : Type} {x : Except Failure α} (h : Decides x) : Ends x fun _ => False := by
  rcases h with ⟨a, rfl⟩ | ⟨fault, rfl⟩
  · exact ⟨nofun, fun b => ⟨nofun, False.elim⟩⟩
  · refine ⟨fun problem hx => ?_, fun b => ⟨nofun, False.elim⟩⟩
    obtain rfl : fault.problem = problem := Failure.problem.inj (Except.error.inj hx)
    exact ⟨fault.problem_isInput, fault, rfl⟩

theorem Ends.decides {α : Type} {x : Except Failure α} {breaks : Breach → Prop} (h : Ends x breaks)
    (hnone : ∀ b, ¬ breaks b) : Decides x := by
  cases x with
  | ok a => exact .of_ok
  | error failure =>
      cases failure with
      | problem problem =>
          obtain ⟨-, fault, rfl⟩ := h.refuses problem rfl
          exact .refuse fault
      | breach b => exact absurd ((h.breaks b).mp rfl) (hnone b)

theorem Ends.congr {α : Type} {x : Except Failure α} {breaks breaks' : Breach → Prop} (h : Ends x breaks)
    (hiff : ∀ b, breaks b ↔ breaks' b) : Ends x breaks' :=
  ⟨h.refuses, fun b => (h.breaks b).trans (hiff b)⟩

/-- Two steps break off where the first one does, or the second one after it. -/
theorem Ends.bind {α β : Type} {x : Except Failure α} {f : α → Except Failure β} {first : Breach → Prop}
    (hx : Ends x first) (second : α → Breach → Prop) (hf : ∀ a, x = .ok a → Ends (f a) (second a)) :
    Ends (x >>= f) fun b => first b ∨ ∃ a, x = .ok a ∧ second a b := by
  constructor
  · intro problem h
    rcases bind_eq_error.mp h with h | ⟨a, ha, h⟩
    · exact hx.refuses problem h
    · exact (hf a ha).refuses problem h
  · intro b
    rw [bind_eq_error, hx.breaks]
    exact or_congr_right (exists_congr fun a => and_congr_right fun ha => (hf a ha).breaks b)

/-! ## Where the check of a canonical path breaks off -/

/-- One of the roots cannot be resolved, and none before it admits the path. -/
def StopsAt (t : Tree) (p : Path) (bases : List Path) (b : Breach) : Prop :=
  ∃ before base after, bases = before ++ base :: after ∧
    (∀ other ∈ before, ∃ admitted, t.resolveBase other = .ok admitted ∧ p.isWithin admitted = false) ∧
    t.resolveBase base = .error (.breach b)

/-- How the check of a canonical path breaks off: a root that may admit it cannot be resolved, the root that
it has to stay below cannot be, the path cannot be looked at, or it is too large by a limit that cannot be
written out. -/
inductive Breaks (t : Tree) (policy : PathPolicy) (p : Path) : Breach → Prop where
  | admitting {b : Breach} (hsystem : isUnderAny p systemDirectories = false)
      (htemporary : isUnderAny p temporaryDirectories = true)
      (hstops : t.StopsAt p (policy.allowedRoots ++ policy.root.toList) b) : Breaks t policy p b
  | root {b : Breach} {base : Path} (hblocked : t.checkBlocked p policy = .ok ())
      (hbase : policy.root = some base) (hfails : t.resolveBase base = .error (.breach b)) : Breaks t policy p b
  | looking {e : StatFault} (hblocked : t.checkBlocked p policy = .ok ()) (hroot : t.checkRoot p policy = .ok ())
      (hlook : t.exists? p = .error e) : Breaks t policy p .fileSystem
  | limit {limit : Int} (hblocked : t.checkBlocked p policy = .ok ()) (hroot : t.checkRoot p policy = .ok ())
      (hkind : t.checkKind p policy = .ok ()) (hlimit : policy.maxFileBytes = some limit)
      (hlarge : limit < t.byteSize p) (htold : Decimal.isWritable limit = false) :
      Breaks t policy p Decimal.overlong

theorem stopsAt_cons {base : Path} {rest : List Path} : t.StopsAt p (base :: rest) b ↔
    t.resolveBase base = .error (.breach b) ∨
      ∃ admitted, t.resolveBase base = .ok admitted ∧ p.isWithin admitted = false ∧ t.StopsAt p rest b := by
  constructor
  · rintro ⟨before, stop, after, hbases, hbefore, hfails⟩
    cases before with
    | nil =>
        obtain ⟨rfl, rfl⟩ := List.cons.inj hbases
        exact .inl hfails
    | cons first before =>
        obtain ⟨rfl, rfl⟩ := List.cons.inj hbases
        obtain ⟨⟨admitted, hadmitted, hwithin⟩, hbefore⟩ := List.forall_mem_cons.mp hbefore
        exact .inr ⟨admitted, hadmitted, hwithin, before, stop, after, rfl, hbefore, hfails⟩
  · rintro (hfails | ⟨admitted, hadmitted, hwithin, before, stop, after, rfl, hbefore, hfails⟩)
    · exact ⟨[], base, rest, rfl, nofun, hfails⟩
    · exact ⟨base :: before, stop, after, rfl,
        List.forall_mem_cons.mpr ⟨⟨admitted, hadmitted, hwithin⟩, hbefore⟩, hfails⟩

theorem resolveBase_ne_problem {problem : Problem} : t.resolveBase p ≠ .error (.problem problem) := by
  unfold resolveBase resolveOrFail
  split
  · exact nofun
  · split <;> exact nofun

theorem admittedBy_ends {bases : List Path} : Ends (t.admittedBy p bases) (t.StopsAt p bases) := by
  induction bases with
  | nil => exact (Decides.of_ok (a := false)).ends.congr fun b => by simp [StopsAt]
  | cons base rest ih =>
      rw [admittedBy]
      refine ((Ends.of_breach fun _ => resolveBase_ne_problem).bind (fun admitted b =>
        p.isWithin admitted = false ∧ t.StopsAt p rest b) fun admitted _ => ?_).congr fun b => stopsAt_cons.symm
      cases p.isWithin admitted with
      | true => exact (Decides.of_ok (a := true)).ends.congr fun b => by simp
      | false => exact ih.congr fun b => by simp

theorem checkBlocked_ends : Ends (t.checkBlocked p policy) fun b =>
    isUnderAny p systemDirectories = false ∧ isUnderAny p temporaryDirectories = true ∧
      t.StopsAt p (policy.allowedRoots ++ policy.root.toList) b := by
  unfold checkBlocked
  cases isUnderAny p systemDirectories with
  | true => exact (Decides.refuse (PathFault.systemDirectory p)).ends.congr fun b => by simp
  | false =>
      cases isUnderAny p temporaryDirectories with
      | false => exact (Decides.of_ok (a := ())).ends.congr fun b => by simp
      | true =>
          refine (admittedBy_ends.bind (fun _ _ => False) fun admitted _ => ?_).congr fun b => by simp
          cases admitted with
          | true => exact Decides.of_ok.ends
          | false => exact (Decides.refuse (PathFault.temporaryDirectory p)).ends

theorem checkRoot_ends : Ends (t.checkRoot p policy) fun b =>
    ∃ base, policy.root = some base ∧ t.resolveBase base = .error (.breach b) := by
  unfold checkRoot
  cases policy.root with
  | none => exact (Decides.of_ok (a := ())).ends.congr fun b => by simp
  | some base =>
      refine ((Ends.of_breach fun _ => resolveBase_ne_problem).bind (fun _ _ => False)
        fun root _ => ?_).congr fun b => by simp
      split
      · exact (Decides.refuse _).ends
      · split
        · exact (Decides.refuse _).ends
        · exact Decides.of_ok.ends

theorem checkKind_ends : Ends (t.checkKind p policy) fun b => b = .fileSystem ∧ ∃ e, t.exists? p = .error e := by
  cases hexists : t.exists? p with
  | ok present => exact (checkKind_decides ⟨present, hexists⟩).ends.congr fun b => by simp
  | error e =>
      unfold checkKind
      rw [hexists]
      refine ⟨?_, fun b => ⟨fun h => ?_, ?_⟩⟩
      · intro problem h
        cases h
      · exact ⟨(Failure.breach.inj (Except.error.inj h)).symm, e, rfl⟩
      · rintro ⟨rfl, -⟩
        rfl

theorem checkSize_ends {name : String} {size : Nat} {most : Option Int} :
    Ends (checkSize name size most) fun b =>
      b = Decimal.overlong ∧ ∃ limit, most = some limit ∧ limit < size ∧ Decimal.isWritable limit = false := by
  by_cases htold : IsWritableLimit most
  · refine (checkSize_decides htold).ends.congr fun b => ⟨False.elim, ?_⟩
    rintro ⟨-, limit, hlimit, -, hlong⟩
    rw [htold limit hlimit] at hlong
    cases hlong
  · obtain ⟨limit, rfl, hlong⟩ : ∃ limit, most = some limit ∧ Decimal.isWritable limit = false := by
      simpa [IsWritableLimit] using htold
    by_cases hlarge : limit < size
    · have hbroken : checkSize name size (some limit) = .error (.breach Decimal.overlong) := by
        rw [checkSize, if_neg (Int.not_le.mpr hlarge), hlong]
        rfl
      rw [hbroken]
      refine ⟨?_, fun b => ⟨fun h => ?_, ?_⟩⟩
      · intro problem h
        cases h
      · exact ⟨(Failure.breach.inj (Except.error.inj h)).symm, limit, rfl, hlarge, hlong⟩
      · rintro ⟨rfl, -⟩
        rfl
    · have hkept : checkSize name size (some limit) = .ok () := checkSize_eq_ok.mpr fun other hother => by
        obtain rfl := Option.some.inj hother
        exact Int.not_lt.mp hlarge
      rw [hkept]
      exact Decides.of_ok.ends.congr fun b => by simp [hlarge]

theorem checkTarget_ends : Ends (t.checkTarget p policy) fun b =>
    (b = .fileSystem ∧ ∃ e, t.exists? p = .error e) ∨
      t.checkKind p policy = .ok () ∧ b = Decimal.overlong ∧
        ∃ limit, policy.maxFileBytes = some limit ∧ limit < t.byteSize p ∧ Decimal.isWritable limit = false := by
  refine (checkKind_ends.bind _ fun _ _ => checkSize_ends.bind (fun _ _ => False)
    fun _ _ => Decides.of_ok.ends).congr fun b => or_congr_right ?_
  constructor
  · rintro ⟨⟨⟩, hkind, hsize | ⟨_, -, hnone⟩⟩
    · exact ⟨hkind, hsize⟩
    · exact hnone.elim
  · rintro ⟨hkind, hsize⟩
    exact ⟨(), hkind, .inl hsize⟩

/-- **Where the check of a path breaks off**: only behind the resolution of the path. -/
theorem checkPath_ends : Ends (t.checkPath raw policy) fun b =>
    checkRaw raw = .ok () ∧ ∃ p, t.canonical raw = .ok p ∧ t.Breaks policy p b := by
  rcases checkPath_cases t raw policy with ⟨fault, hraw, hrefused⟩ | ⟨cause, -, hcanonical, hrefused⟩ |
    ⟨p, hraw, hcanonical, hjudged⟩
  · rw [hrefused]
    exact (Decides.refuse fault).ends.congr fun b => by simp [hraw]
  · rw [hrefused]
    exact (Decides.refuse _).ends.congr fun b => by simp [hcanonical]
  · rw [hjudged]
    refine (checkBlocked_ends.bind _ fun _ _ => checkRoot_ends.bind _ fun _ _ => checkTarget_ends).congr
      fun b => ?_
    constructor
    · rintro (⟨hsystem, htemporary, hstops⟩ |
        ⟨⟨⟩, hblocked, ⟨base, hbase, hfails⟩ | ⟨⟨⟩, hroot, ⟨rfl, e, hlook⟩ |
          ⟨hkind, rfl, limit, hlimit, hlarge, htold⟩⟩⟩)
      · exact ⟨hraw, p, hcanonical, .admitting hsystem htemporary hstops⟩
      · exact ⟨hraw, p, hcanonical, .root hblocked hbase hfails⟩
      · exact ⟨hraw, p, hcanonical, .looking hblocked hroot hlook⟩
      · exact ⟨hraw, p, hcanonical, .limit hblocked hroot hkind hlimit hlarge htold⟩
    · rintro ⟨-, p', hp, hbreaks⟩
      obtain rfl := Except.ok.inj (hcanonical.symm.trans hp)
      cases hbreaks with
      | admitting hsystem htemporary hstops => exact .inl ⟨hsystem, htemporary, hstops⟩
      | root hblocked hbase hfails => exact .inr ⟨(), hblocked, .inl ⟨_, hbase, hfails⟩⟩
      | looking hblocked hroot hlook => exact .inr ⟨(), hblocked, .inr ⟨(), hroot, .inl ⟨rfl, _, hlook⟩⟩⟩
      | limit hblocked hroot hkind hlimit hlarge htold =>
          exact .inr ⟨(), hblocked, .inr ⟨(), hroot, .inr ⟨hkind, rfl, _, hlimit, hlarge, htold⟩⟩⟩

/-! ## Where the check of a root breaks off -/

/-- How the check of the root of a project breaks off: the home directory that its path starts in is not
known, the path runs into a loop of links, or what it resolves to cannot be looked at, be it the first time
or when what was found is resolved again. -/
inductive Interrupts (t : Tree) (raw : String) : Breach → Prop where
  | home (hhome : t.expandHome (Path.ofString raw) = none) :
      Interrupts t raw (.illegalStep "Could not determine home directory.")
  | loop {b : Breach} {p : Path} (hp : t.expandHome (Path.ofString raw) = some p)
      (hloop : t.resolve p = .error b) : Interrupts t raw b
  | looking {p : Path} {e : StatFault} (hcanonical : t.canonical raw = .ok p) (hlook : t.exists? p = .error e) :
      Interrupts t raw .fileSystem
  | again {p q : Path} {e : StatFault} (hcanonical : t.canonical raw = .ok p) (hpresent : t.exists? p = .ok true)
      (hresolve : t.resolve p = .ok q) (hsystem : isUnderAny q systemDirectories = false)
      (hlook : t.exists? q = .error e) : Interrupts t raw .fileSystem

theorem canonical_ends : Ends (t.canonical raw) fun b =>
    (t.expandHome (Path.ofString raw) = none ∧ b = .illegalStep "Could not determine home directory.") ∨
      ∃ p, t.expandHome (Path.ofString raw) = some p ∧ t.resolve p = .error b := by
  refine (Ends.of_breach fun _ => canonical_ne_problem).congr fun b => ?_
  unfold canonical
  cases t.expandHome (Path.ofString raw) with
  | none => simp [eq_comm]
  | some p =>
      unfold resolveOrFail
      cases hresolve : t.resolve p with
      | ok q => simp [hresolve]
      | error cause => simp [hresolve]

theorem looked_ends {α : Type} {x : Except StatFault α} :
    Ends (looked x) fun b => b = .fileSystem ∧ ∃ e, x = .error e := by
  cases x with
  | ok a => exact Decides.of_ok.ends.congr fun b => by simp
  | error e => exact ⟨nofun, fun b => by simp [looked, eq_comm]⟩

/-- A path as a resolution can be: from a root, with components that are names and can be written. -/
structure IsClean (p : Path) : Prop where
  absolute : p.isAbsolute = true
  names : ∀ c ∈ p.parts, IsName c ∧ IsComponent c

theorem isClean_of_canonical (hsound : t.IsSound) (hraw : '\x00' ∉ raw.toList) (h : t.canonical raw = .ok p) :
    IsClean p := by
  obtain ⟨q, hq, hresolve⟩ := canonical_eq_ok h
  have hcomponents := t.realPath_forall hsound.forallTargets (hsound.isComponent_startOf q)
    (isComponent_of_expandHome hsound hraw hq)
  rw [← t.resolve_eq_ok hresolve] at hcomponents
  exact ⟨t.isAbsolute_of_resolve hresolve, fun c hc => ⟨t.isName_of_resolve hresolve c hc, hcomponents c hc⟩⟩

/-- A clean path comes back from its text. -/
theorem IsClean.ofString_toString (h : IsClean p) : Path.ofString p.toString = p :=
  Path.ofString_toString h.absolute (fun c hc => (h.names c hc).2.1)
    fun c hc => ⟨(h.names c hc).1.1, (h.names c hc).1.2.1⟩

/-- The text of a clean path resolves as the path does. -/
theorem IsClean.canonical_toString (h : IsClean p) : t.canonical p.toString = t.resolveOrFail p := by
  have hhome : t.expandHome p = some p := by
    obtain ⟨anchor, parts⟩ := p
    cases anchor with
    | here => exact nomatch h.absolute
    | root | doubleRoot => rfl
  rw [canonical, h.ofString_toString, hhome]

theorem IsClean.checkRaw_toString (h : IsClean p) (hfits : p.Fits) :
    checkRaw p.toString = .ok () := by
  refine checkRaw_eq_ok.mpr ⟨?_, length_le_of_fits hfits, ?_⟩
  · exact nul_not_mem_toString h.absolute fun c hc => (h.names c hc).2
  · rw [h.ofString_toString]
    exact fun hdots => (h.names _ hdots).1.2.2 rfl

/-- A path that is admitted by itself is checked for system directories and looked at. -/
theorem breaks_rootPolicy (hbase : t.resolveBase p = .ok q) :
    t.Breaks (rootPolicy p) q b ↔
      b = .fileSystem ∧ isUnderAny q systemDirectories = false ∧ ∃ e, t.exists? q = .error e := by
  constructor
  · intro h
    cases h with
    | admitting _ _ hstops =>
        -- the only root is the path that was resolved
        rcases stopsAt_cons.mp hstops with hfails | ⟨_, _, _, _, _, _, hnone, _⟩
        · rw [hbase] at hfails
          cases hfails
        · simp [rootPolicy] at hnone
    | root _ hroot => simp [rootPolicy] at hroot
    | looking hblocked _ hlook =>
        exact ⟨rfl, isUnderAny_eq_false.mpr (checkBlocked_sound hblocked).1, _, hlook⟩
    | limit _ _ _ hlimit => simp [rootPolicy] at hlimit
  · rintro ⟨rfl, hsystem, e, hlook⟩
    exact .looking (checkBlocked_rootPolicy hbase hsystem) rfl hlook

/-- The check of a clean path that leads somewhere, by its own text, breaks off only if the path resolves to
another one that cannot be looked at. -/
theorem checkPath_rootPolicy_ends (h : IsClean p) (hpresent : t.exists? p = .ok true) :
    Ends (t.checkPath p.toString (rootPolicy p)) fun b =>
      b = .fileSystem ∧ ∃ q, t.resolve p = .ok q ∧ isUnderAny q systemDirectories = false ∧
        ∃ e, t.exists? q = .error e := by
  obtain ⟨n, hn⟩ := stat_of_exists? hpresent
  have hbase {q : Path} (hq : t.resolve p = .ok q) : t.resolveBase p = .ok q :=
    resolveBase_eq_ok.mpr ⟨fun c hc => (h.names c hc).2.2, hq⟩
  refine checkPath_ends.congr fun b => ?_
  rw [h.canonical_toString]
  constructor
  · rintro ⟨-, q, hq, hbreaks⟩
    have hq := resolveOrFail_eq_ok.mp hq
    obtain ⟨rfl, hsystem, hlook⟩ := (breaks_rootPolicy (hbase hq)).mp hbreaks
    exact ⟨rfl, q, hq, hsystem, hlook⟩
  · rintro ⟨rfl, q, hq, hsystem, hlook⟩
    exact ⟨h.checkRaw_toString (fits_of_stat hn), q, resolveOrFail_eq_ok.mpr hq,
      (breaks_rootPolicy (hbase hq)).mpr ⟨rfl, hsystem, hlook⟩⟩

/-- **Where the check of a root breaks off.** -/
theorem checkProjectRoot_ends (hsound : t.IsSound) :
    Ends (t.checkProjectRoot raw) fun b => checkRaw raw = .ok () ∧ t.Interrupts raw b := by
  unfold checkProjectRoot
  cases hraw : checkRaw raw with
  | error fault => exact (Decides.refuse fault).ends.congr fun b => by simp
  | ok =>
      have hnul := (checkRaw_eq_ok.mp hraw).1
      -- three steps one after the other: the path, the look at it, and the check of its own text
      refine (canonical_ends.bind _ fun p hp => looked_ends.bind (fun present b =>
        present = true ∧ b = .fileSystem ∧ ∃ q, t.resolve p = .ok q ∧
          isUnderAny q systemDirectories = false ∧ ∃ e, t.exists? q = .error e)
        fun present hpresent => ?_).congr fun b => ?_
      · cases present with
        | false => exact (Decides.refuse (PathFault.noProject p)).ends.congr fun b => by simp
        | true =>
            have hagain := checkPath_rootPolicy_ends (isClean_of_canonical hsound hnul hp)
              (looked_eq_ok.mp hpresent)
            exact (hagain.bind (fun _ _ => False) fun checked _ => Decides.of_ok.ends).congr
              fun b => by simp
      · constructor
        · rintro ((⟨hhome, rfl⟩ | ⟨p, hp, hloop⟩) | ⟨p, hp, ⟨rfl, e, hlook⟩ |
            ⟨present, hpresent, rfl, rfl, q, hq, hsystem, e, hlook⟩⟩)
          · exact ⟨rfl, .home hhome⟩
          · exact ⟨rfl, .loop hp hloop⟩
          · exact ⟨rfl, .looking hp hlook⟩
          · exact ⟨rfl, .again hp (looked_eq_ok.mp hpresent) hq hsystem hlook⟩
        · rintro ⟨-, hinterrupts⟩
          cases hinterrupts with
          | home hhome => exact .inl (.inl ⟨hhome, rfl⟩)
          | loop hp hloop => exact .inl (.inr ⟨_, hp, hloop⟩)
          | looking hp hlook => exact .inr ⟨_, hp, .inl ⟨rfl, _, hlook⟩⟩
          | again hp hpresent hq hsystem hlook =>
              exact .inr ⟨_, hp, .inr ⟨true, looked_eq_ok.mpr hpresent, rfl, rfl, _, hq, hsystem, _, hlook⟩⟩

theorem canonical_of_checkProjectRoot (hsound : t.IsSound) (h : t.checkProjectRoot raw = .ok q) :
    ∃ p, t.canonical raw = .ok p ∧ t.resolve p = .ok q := by
  unfold checkProjectRoot at h
  cases hraw : checkRaw raw with
  | error fault =>
      rw [hraw] at h
      exact nomatch h
  | ok =>
      rw [hraw] at h
      obtain ⟨p, hp, h⟩ := bind_eq_ok.mp h
      obtain ⟨present, -, h⟩ := bind_eq_ok.mp h
      obtain ⟨-, h⟩ := guard_eq_ok.mp h
      obtain ⟨checked, hchecked, h⟩ := bind_eq_ok.mp h
      obtain rfl := pure_eq_ok.mp h
      obtain ⟨-, c, hc, -, -, htarget⟩ := checkPath_eq_ok.mp hchecked
      rw [(isClean_of_canonical hsound (checkRaw_eq_ok.mp hraw).1 hp).canonical_toString] at hc
      refine ⟨p, hp, ?_⟩
      rw [(checkTarget_sound htarget).1]
      exact resolveOrFail_eq_ok.mp hc

/-! ## Paths below a canonical root -/

/-- A path resolves into a project and into no directory of the system, but what it resolves to is too long to
be looked at. -/
def IsUnreadable (t : Tree) (root : Path) (raw : String) : Prop :=
  checkRaw raw = .ok () ∧ ∃ q, t.canonical raw = .ok q ∧ isUnderAny q systemDirectories = false ∧
    q.isWithin root = true ∧ t.stat q = .error .nameTooLong

/-- A canonical path is unreadable by its own text, if it is just short enough to be checked. -/
theorem IsClean.isUnreadable_toString {root : Path} (h : IsClean p)
    (hfits : p.Fits) (hresolve : t.resolve p = .ok p)
    (hsystem : isUnderAny p systemDirectories = false) (hwithin : p.isWithin root = true)
    (hstat : t.stat p = .error .nameTooLong) : t.IsUnreadable root p.toString := by
  refine ⟨h.checkRaw_toString hfits, p, ?_, hsystem, hwithin, hstat⟩
  rw [h.canonical_toString]
  exact resolveOrFail_eq_ok.mpr hresolve

/-- Below a root that is its own resolution, and without a limit, only looking at the path breaks a check off. -/
theorem breaks_iff {root : Path} (hroot : t.resolveBase root = .ok root) (hpolicy : policy.root = some root)
    (hallowed : policy.allowedRoots = []) (hdenied : policy.denied = []) (hnone : policy.maxFileBytes = none) :
    t.Breaks policy q b ↔ b = .fileSystem ∧ isUnderAny q systemDirectories = false ∧
      q.isWithin root = true ∧ t.stat q = .error .nameTooLong := by
  have hbases : policy.allowedRoots ++ policy.root.toList = [root] := by
    rw [hallowed, hpolicy]
    rfl
  constructor
  · intro h
    cases h with
    | admitting _ _ hstops =>
        rw [hbases, stopsAt_cons, hroot] at hstops
        rcases hstops with hfails | ⟨_, _, _, before, base, after, hnone, _⟩
        · cases hfails
        · exact absurd hnone.symm (List.append_ne_nil_of_right_ne_nil before (List.cons_ne_nil base after))
    | root _ hbase hfails =>
        obtain rfl := Option.some.inj (hpolicy.symm.trans hbase)
        rw [hroot] at hfails
        cases hfails
    | looking hblocked hbelow hlook =>
        obtain ⟨rfl, hstat⟩ := exists?_eq_error.mp hlook
        obtain ⟨resolved, parts, hresolved, hanchor, hparts, -⟩ := checkRoot_sound hbelow hpolicy
        obtain rfl := Except.ok.inj (hroot.symm.trans hresolved)
        refine ⟨rfl, isUnderAny_eq_false.mpr (checkBlocked_sound hblocked).1, ?_, hstat⟩
        rw [Path.isWithin, hanchor, Path.begins_iff.mpr ⟨parts, hparts⟩, beq_self_eq_true]
        rfl
    | limit _ _ _ hlimit =>
        rw [hnone] at hlimit
        cases hlimit
  · rintro ⟨rfl, hsystem, hwithin, hstat⟩
    refine .looking (checkBlocked_of_admitted hsystem ?_) ?_ (exists?_eq_error.mpr ⟨rfl, hstat⟩)
    · rw [hbases]
      exact admittedBy_singleton hroot hwithin
    · unfold checkRoot
      rw [hpolicy, hdenied]
      dsimp only
      rw [hroot, ok_bind, Path.relativeTo?, if_pos hwithin]
      dsimp only
      rw [List.find?_eq_none.mpr (by simp)]
      rfl

/-! ## Trees without cycles of links -/

theorem Acyclic.resolve_ne_error (h : t.Acyclic) (hsound : t.IsSound) (p : Path) : t.resolve p ≠ .error b := by
  obtain ⟨place, hplace, -⟩ := reaches_realPath hsound h p
  rw [hplace.resolve hsound h]
  exact nofun

theorem Acyclic.resolve_canonical (h : t.Acyclic) (hsound : t.IsSound) (hp : t.canonical raw = .ok p) :
    t.resolve p = .ok p := by
  obtain ⟨q, -, hresolve⟩ := canonical_eq_ok hp
  obtain ⟨place, rfl, hplace⟩ := reaches_of_resolve hsound h hresolve
  have hsettled : t.IsSettled ([] ++ place) := hplace.isSettled hsound
  exact Reaches.resolve hsound h hsettled.steps_down

/-- Without cycles of links nothing but an unreadable path, a NUL in the policy or a limit that cannot be written
out breaks a check off. -/
theorem Acyclic.checkPath_decides (h : t.Acyclic) (hsound : t.IsSound)
    (hlimit : IsWritableLimit policy.maxFileBytes)
    (hlook : ∀ p, t.canonical raw = .ok p → ∃ present, t.exists? p = .ok present)
    (hbases : ∀ base ∈ policy.allowedRoots ++ policy.root.toList, ∀ c ∈ base.parts, '\x00' ∉ c.toList) :
    Decides (t.checkPath raw policy) := by
  refine Tree.checkPath_decides (fun base hbase => ?_) hlimit hlook
  obtain ⟨place, hplace, -⟩ := reaches_realPath hsound h base
  exact ⟨_, resolveBase_eq_ok.mpr ⟨hbases base hbase, hplace.resolve hsound h⟩⟩

/-- Without cycles of links nothing but an unreadable path or an unknown home directory breaks the check of a
root off. -/
theorem Acyclic.checkProjectRoot_decides (h : t.Acyclic) (hsound : t.IsSound)
    (hlook : ∀ p, t.canonical raw = .ok p → ∃ present, t.exists? p = .ok present)
    (hhome : ∃ p, t.expandHome (Path.ofString raw) = some p) : Decides (t.checkProjectRoot raw) := by
  refine (checkProjectRoot_ends hsound).decides fun b ⟨_, hinterrupts⟩ => ?_
  cases hinterrupts with
  | home hnone =>
      obtain ⟨p, hp⟩ := hhome
      rw [hnone] at hp
      exact nomatch hp
  | loop _ hloop => exact h.resolve_ne_error hsound _ hloop
  | looking hcanonical hfails =>
      obtain ⟨present, hpresent⟩ := hlook _ hcanonical
      rw [hpresent] at hfails
      exact nomatch hfails
  | again hcanonical hpresent hresolve _ hfails =>
      -- the second resolution changes nothing, and the path was looked at before
      obtain rfl := Except.ok.inj ((h.resolve_canonical hsound hcanonical).symm.trans hresolve)
      rw [hpresent] at hfails
      exact nomatch hfails

/-- **How checks end.** A path that passes is returned as what it resolves to, and a root as what that
resolves to in turn; every problem is a refusal of the input. A check breaks off exactly as `Breaks` and
`Interrupts` say. In a tree without cycles of links whose canonical path can be looked at, every path is
decided unless there is a NUL in a root of the policy or its limit has too many digits, and every root unless it
starts in an unknown home directory. -/
theorem checks_end (hsound : t.IsSound) (raw : String) (policy : PathPolicy) :
    (∀ checked, t.checkPath raw policy = .ok checked → t.canonical raw = .ok checked.canonical) ∧
    Ends (t.checkPath raw policy)
      (fun b => checkRaw raw = .ok () ∧ ∃ p, t.canonical raw = .ok p ∧ t.Breaks policy p b) ∧
    (∀ root, t.checkProjectRoot raw = .ok root → ∃ p, t.canonical raw = .ok p ∧ t.resolve p = .ok root) ∧
    Ends (t.checkProjectRoot raw) (fun b => checkRaw raw = .ok () ∧ t.Interrupts raw b) ∧
    (t.Acyclic → (∀ p, t.canonical raw = .ok p → ∃ present, t.exists? p = .ok present) →
      ((∀ base ∈ policy.allowedRoots ++ policy.root.toList, ∀ c ∈ base.parts, '\x00' ∉ c.toList) →
        IsWritableLimit policy.maxFileBytes → Decides (t.checkPath raw policy)) ∧
      ((∃ p, t.expandHome (Path.ofString raw) = some p) → Decides (t.checkProjectRoot raw))) := by
  refine ⟨fun checked h => ?_, checkPath_ends, fun root => canonical_of_checkProjectRoot hsound,
    checkProjectRoot_ends hsound, fun hacyclic hlook => ⟨?_, ?_⟩⟩
  · obtain ⟨-, p, hcanonical, -, -, htarget⟩ := checkPath_eq_ok.mp h
    rw [(checkTarget_sound htarget).1]
    exact hcanonical
  · exact fun hbases hlimit => hacyclic.checkPath_decides hsound hlimit hlook hbases
  · exact hacyclic.checkProjectRoot_decides hsound hlook

/-- A project with a link that leads to itself. -/
def looped : Tree := besideOutside [("loop", .link "loop"), ("main.c", .file (.text "x") false)]

theorem looped_sound : looped.IsSound := ⟨by decide, by decide, by decide, by decide⟩

/-- A path in the home directory of nobody is refused, but breaks off the check of a root. -/
theorem checks_end_unknown_home :
    let raw := "~ghost/project"
    Decides (looped.checkPath raw projectPolicy) ∧
      looped.checkProjectRoot raw = .error (.breach (.illegalStep "Could not determine home directory.")) := by
  intro raw
  have hhome : looped.expandHome (Path.ofString raw) = none := by decide +kernel
  obtain ⟨-, hpath, -, hroot, -⟩ := checks_end looped_sound raw projectPolicy
  constructor
  · -- without a canonical path there is nothing to break off at
    refine hpath.decides fun b ⟨_, p, hp, _⟩ => ?_
    obtain ⟨q, hq, -⟩ := canonical_eq_ok hp
    rw [hhome] at hq
    exact nomatch hq
  · exact (hroot.breaks _).mpr ⟨by decide +kernel, .home hhome⟩

/-- A file that is too large by a limit of too many digits breaks off the check. -/
example : looped.checkPath "/project/main.c" { maxFileBytes := some (-(10 ^ Decimal.maxWholeDigits : Nat)) } =
    .error (.breach Decimal.overlong) := by decide +kernel

/-- **A loop of links breaks off the check of a root**, while the same path is refused when it is checked as a
path. As the root of a policy it breaks off the check of another path, too. -/
theorem checkProjectRoot_loop :
    let loop : Breach := .linkLoop "/project/loop"
    looped.IsSound ∧ looped.checkProjectRoot "/project/loop" = .error (.breach loop) ∧
      looped.checkPath "/project/loop" projectPolicy =
        .error (PathFault.unresolvable "/project/loop" loop.message).failure ∧
      looped.checkPath "/project/main.c" { root := some (Path.ofString "/project/loop") } =
        .error (.breach loop) := by
  intro loop
  exact ⟨looped_sound, by decide +kernel, by decide +kernel, by decide +kernel⟩

end Assay.Files.Tree
