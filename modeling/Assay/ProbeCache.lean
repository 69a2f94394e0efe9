import Assay.Analyzer.Availability

/-!
# Remembering probes

What a probe found out is remembered for some time, for every language and tool on its own. An entry
is live as long as its age is below the lifetime; an entry that is not is as good as none, and the next
question probes anew. Times may be anything that can be subtracted and compared.
-/

namespace Assay

/-- Which probe is meant: that of a tool under a language. -/
abbrev ProbeKey := String × String

/-- What a probe found out, and when. -/
structure ProbeEntry (τ : Type) where
  availability : Availability
  checkedAt : τ
deriving Repr, DecidableEq

/-- The probes remembered, each key once, and how long they live. -/
structure ProbeCache (τ : Type) where
  lifetime : τ
  entries : List (ProbeKey × ProbeEntry τ) := []

namespace ProbeCache

variable {τ : Type}

/-- A cache without entries. A negative lifetime counts as none. -/
def empty [LT τ] [DecidableLT τ] [OfNat τ 0] (lifetime : τ) : ProbeCache τ :=
  ⟨if lifetime < 0 then 0 else lifetime, []⟩

/-- How many entries there are, live or not. -/
def size (c : ProbeCache τ) : Nat := c.entries.length

/-- The entry of a key, live or not. -/
def stored? (c : ProbeCache τ) (key : ProbeKey) : Option (ProbeEntry τ) := c.entries.lookup key

/-- The entry of a key if it is live. -/
def peek [Sub τ] [LT τ] [DecidableLT τ] (c : ProbeCache τ) (key : ProbeKey) (now : τ) :
    Option (ProbeEntry τ) :=
  (c.stored? key).filter fun e => decide (now - e.checkedAt < c.lifetime)

/-- The entries with that of a key set. -/
def set (key : ProbeKey) (e : ProbeEntry τ) :
    List (ProbeKey × ProbeEntry τ) → List (ProbeKey × ProbeEntry τ)
  | [] => [(key, e)]
  | (other, old) :: rest => if other == key then (other, e) :: rest else (other, old) :: set key e rest

/-- The cache with what a probe found out. -/
def store (c : ProbeCache τ) (key : ProbeKey) (e : ProbeEntry τ) : ProbeCache τ :=
  { c with entries := set key e c.entries }

/-- The cache without the entry of a key, or without any. -/
def invalidate (c : ProbeCache τ) : Option ProbeKey → ProbeCache τ
  | none => { c with entries := [] }
  | some key => { c with entries := c.entries.filter fun e => e.1 != key }

/-- The live entry of a key, or else that of a new probe. The entries are looked at twice before a probe,
the second time when it is the caller's turn to probe; the clock is read for each look and after the probe.
A probe that fails leaves the cache as it is. -/
def ask [Sub τ] [LT τ] [DecidableLT τ] {σ ε : Type} (c : ProbeCache τ) (key : ProbeKey)
    (clock : σ → τ × σ) (probe : σ → Except ε Availability × σ) (world : σ) :
    Except ε (ProbeEntry τ) × ProbeCache τ × σ :=
  let (now, world) := clock world
  match c.peek key now with
  | some e => (.ok e, c, world)
  | none =>
    let (now, world) := clock world
    match c.peek key now with
    | some e => (.ok e, c, world)
    | none =>
      match probe world with
      | (.error failure, world) => (.error failure, c, world)
      | (.ok availability, world) =>
        let (now, world) := clock world
        let e : ProbeEntry τ := ⟨availability, now⟩
        (.ok e, c.store key e, world)

/-- The live entry of a key, or else that of a new probe, by a clock that reading does not move. -/
def getOrProbe [Sub τ] [LT τ] [DecidableLT τ] {σ ε : Type} (c : ProbeCache τ) (key : ProbeKey)
    (clock : σ → τ) (probe : σ → Except ε Availability × σ) (world : σ) :
    Except ε (ProbeEntry τ) × ProbeCache τ × σ :=
  c.ask key (fun world => (clock world, world)) probe world

end ProbeCache

end Assay
