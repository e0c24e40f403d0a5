import GridScript.Compile.Line

/-!
# The program cache

Compiled programs are kept until the world they were read from or the catalogue
changes. What is served is therefore what compiling anew would give, up to the
identities of nodes.
-/

namespace GridScript

/-- A result together with what it was made from. -/
structure Cached (α : Type) where
  /-- Revision of the world. -/
  revision : Nat
  /-- Version of the catalogue. -/
  catalogueVersion : UInt64
  /-- The result. -/
  value : α

/-- Whether a cached result still stands. -/
def Cached.isFresh {α : Type} (cached : Cached α) (shop : Workshop) : Bool :=
  cached.revision == shop.world.revision && cached.catalogueVersion == shop.catalogue.version

/-- A result for the current state of a workshop. -/
def Cached.now {α : Type} (shop : Workshop) (value : α) : Cached α :=
  ⟨shop.world.revision, shop.catalogue.version, value⟩

/-- A region of a named world. -/
structure WorldRegion where
  /-- Name of the world. -/
  world : String
  /-- The region. -/
  region : Region
  deriving DecidableEq

namespace WorldRegion

instance : Ord WorldRegion where
  compare := compareLex (compareOn world) (compareOn region)

instance : Std.TransOrd WorldRegion :=
  inferInstanceAs (Std.TransCmp (compareLex (compareOn world) (compareOn region)))

end WorldRegion

/-- Compiled programs by where they start, and compiled regions. -/
structure ProgramCache where
  /-- Lines by the place of their entry. -/
  lines : SortedMap Place (Cached (Except CompileError Program))
  /-- Regions. -/
  regions : SortedMap WorldRegion (Cached CompileReport)

/-- An answer of the cache. -/
structure Served (α : Type) where
  /-- The result. -/
  value : α
  /-- Whether the result was kept from before. -/
  reused : Bool
  /-- What compiling had to say, if it was done anew. -/
  findings : List CompileError
  /-- The cache afterwards. -/
  cache : ProgramCache
  /-- The counter of identities afterwards. -/
  ids : IdSource

namespace ProgramCache

/-- A cache with nothing in it. -/
def empty : ProgramCache :=
  ⟨.empty, .empty⟩

/-- The program of a line, compiled only if needed. -/
def line (cache : ProgramCache) (shop : Workshop) (entry : Position) (ids : IdSource) :
    Served (Except CompileError Program) :=
  let key : Place := ⟨shop.world.name, entry⟩
  match (cache.lines.get? key).filter (·.isFresh shop) with
  | some cached => ⟨cached.value, true, [], cache, ids⟩
  | none =>
    let keep (value : Except CompileError Program) : ProgramCache :=
      { cache with lines := cache.lines.insert key (.now shop value) }
    match shop.compileLine entry ids with
    | .ok (program, findings, ids) => ⟨.ok program, false, findings, keep (.ok program), ids⟩
    | .error finding => ⟨.error finding, false, [], keep (.error finding), ids⟩

/-- The programs of a region, compiled only if needed. -/
def region (cache : ProgramCache) (shop : Workshop) (region : Region) (ids : IdSource) :
    Served CompileReport :=
  let key : WorldRegion := ⟨shop.world.name, region⟩
  match (cache.regions.get? key).filter (·.isFresh shop) with
  | some cached => ⟨cached.value, true, [], cache, ids⟩
  | none =>
    let (report, ids) := shop.compileRegion region ids
    ⟨report, false, report.diagnostics.map Diagnostic.error,
      { cache with regions := cache.regions.insert key (.now shop report) }, ids⟩

/-- The cache without anything about a world. -/
def invalidate (cache : ProgramCache) (world : String) : ProgramCache :=
  ⟨cache.lines.filter fun key _ => key.world != world,
    cache.regions.filter fun key _ => key.world != world⟩

/-- The number of results kept. -/
def size (cache : ProgramCache) : Nat :=
  cache.lines.size + cache.regions.size

end ProgramCache

end GridScript
