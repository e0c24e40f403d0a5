import GridScript.Catalogue.Standard
import GridScript.Compile.Cache
import GridScript.Proofs.Counts
import Mathlib.Logic.Function.Basic

/-!
# The cache never serves a stale program

Worlds are edited, the catalogue is replaced, and programs are looked up in
between, in any order. Every lookup gives what compiling at that moment would
give, up to the identities of nodes. A cached result carries the revision of its
world and the version of the catalogue; neither ever falls, and whatever changes
the world or the catalogue raises one of them, so a result that is still fresh
was compiled from exactly what there is now.
-/

namespace GridScript

instance : Std.LawfulEqOrd Position where
  eq_of_compare {a b} h := by
    obtain ⟨hx, hyz⟩ := compareLex_eq_eq.1 h
    obtain ⟨hy, hz⟩ := compareLex_eq_eq.1 hyz
    obtain ⟨x, y, z⟩ := a
    obtain rfl : x = b.x := Std.LawfulEqOrd.eq_of_compare hx
    obtain rfl : y = b.y := Std.LawfulEqOrd.eq_of_compare hy
    obtain rfl : z = b.z := Std.LawfulEqOrd.eq_of_compare hz
    rfl

instance : Std.LawfulEqOrd Region where
  eq_of_compare {a b} h := by
    obtain ⟨hl, hg⟩ := compareLex_eq_eq.1 h
    obtain ⟨least, greatest⟩ := a
    obtain rfl : least = b.least := Std.LawfulEqOrd.eq_of_compare hl
    obtain rfl : greatest = b.greatest := Std.LawfulEqOrd.eq_of_compare hg
    rfl

instance : Std.LawfulEqOrd Place where
  eq_of_compare {a b} h := by
    obtain ⟨hw, hp⟩ := compareLex_eq_eq.1 h
    obtain ⟨world, position⟩ := a
    obtain rfl : world = b.world := Std.LawfulEqOrd.eq_of_compare hw
    obtain rfl : position = b.position := Std.LawfulEqOrd.eq_of_compare hp
    rfl

instance : Std.LawfulEqOrd WorldRegion where
  eq_of_compare {a b} h := by
    obtain ⟨hw, hr⟩ := compareLex_eq_eq.1 h
    obtain ⟨world, region⟩ := a
    obtain rfl : world = b.world := Std.LawfulEqOrd.eq_of_compare hw
    obtain rfl : region = b.region := Std.LawfulEqOrd.eq_of_compare hr
    rfl

namespace SortedMap

variable {κ α : Type} [Ord κ] [Std.LawfulEqOrd κ]

/-- Every entry after an insertion is the new one or was there before. -/
theorem mem_entries_insert [Std.TransOrd κ] {map : SortedMap κ α} {key : κ} {value : α}
    {entry : κ × α} (h : entry ∈ (map.insert key value).entries) :
    entry = (key, value) ∨ entry ∈ map.entries := by
  have hinsert : ∀ entries : List (κ × α), entry ∈ Entries.insert key value entries →
      entry = (key, value) ∨ entry ∈ entries := by
    intro entries
    induction entries with
    | nil => exact fun hm => .inl (List.mem_singleton.1 hm)
    | cons head rest ih =>
      obtain ⟨k, v⟩ := head
      intro hm
      rw [Entries.insert] at hm
      split at hm
      · exact List.mem_cons.1 hm
      · rename_i heq
        obtain rfl : key = k := Std.LawfulEqOrd.eq_of_compare heq
        rcases List.mem_cons.1 hm with hm | hm
        · exact .inl hm
        · exact .inr (List.mem_cons_of_mem _ hm)
      · rcases List.mem_cons.1 hm with hm | hm
        · exact .inr (hm ▸ List.mem_cons_self)
        · exact (ih hm).imp_right (List.mem_cons_of_mem _)
  exact hinsert map.entries h

end SortedMap

namespace Node

mutual

/-- The tree with all identities forgotten. -/
def anonymous : Node → Node
  | .mk head children next =>
    .mk { head with id := 0 } (anonymousAll children) (anonymousNext next)

/-- Trees with all identities forgotten. -/
def anonymousAll : List Node → List Node
  | [] => []
  | node :: rest => node.anonymous :: anonymousAll rest

/-- An optional tree with all identities forgotten. -/
def anonymousNext : Option Node → Option Node
  | none => none
  | some node => some node.anonymous

end

mutual

/-- New identities change nothing else. -/
theorem anonymous_renew : (node : Node) → (ids : IdSource) →
    (node.renew ids).1.anonymous = node.anonymous
  | .mk head children next, ids => by
    have hchildren := anonymousAll_renewAll children ids.fresh.2
    have hnext := anonymousNext_renewNext next (renewAll children ids.fresh.2).2
    simp only [renew, anonymous, hchildren, hnext]

/-- New identities change nothing else in several trees. -/
theorem anonymousAll_renewAll : (nodes : List Node) → (ids : IdSource) →
    anonymousAll (renewAll nodes ids).1 = anonymousAll nodes
  | [], _ => rfl
  | node :: rest, ids => by
    have hnode := anonymous_renew node ids
    have hrest := anonymousAll_renewAll rest (node.renew ids).2
    simp only [renewAll, anonymousAll, hnode, hrest]

/-- New identities change nothing else in an optional tree. -/
theorem anonymousNext_renewNext : (next : Option Node) → (ids : IdSource) →
    anonymousNext (renewNext next ids).1 = anonymousNext next
  | none, _ => rfl
  | some node, ids => by
    have hnode := anonymous_renew node ids
    simp only [renewNext, anonymousNext, hnode]

end

end Node

/-- The program with all identities of nodes forgotten. -/
def Program.anonymous (program : Program) : Program :=
  { program with root := program.root.anonymous }

/-- The report with all identities of nodes forgotten. -/
def CompileReport.anonymous (report : CompileReport) : CompileReport :=
  { report with programs := report.programs.map Program.anonymous }

namespace Workshop

/-- The program of a line or why there is none, up to identities. -/
def line (shop : Workshop) (entry : Position) (ids : IdSource) : Except CompileError Program :=
  (shop.compileLine entry ids).map fun result => result.1.anonymous

/-- The report on a region, up to identities. -/
def report (shop : Workshop) (region : Region) (ids : IdSource) : CompileReport :=
  (shop.compileRegion region ids).1.anonymous

/-- Which identities are free has no influence on anything else a line gives. -/
theorem compileLine_cases (shop : Workshop) (entry : Position) (ids others : IdSource) :
    (∃ finding, shop.compileLine entry ids = .error finding ∧
      shop.compileLine entry others = .error finding) ∨
    ∃ program other findings after after',
      shop.compileLine entry ids = .ok (program, findings, after) ∧
      shop.compileLine entry others = .ok (other, findings, after') ∧
      program.anonymous = other.anonymous := by
  unfold compileLine
  cases shop.readEntry entry with
  | error finding => exact .inl ⟨finding, rfl, rfl⟩
  | ok start =>
    refine .inr ⟨_, _, _, _, _, rfl, rfl, ?_⟩
    simp only [Program.anonymous, Node.anonymous, Node.anonymousAll_renewAll,
      Node.anonymousNext_renewNext]

/-- Which identities are free has no influence on a line. -/
theorem line_ids (shop : Workshop) (entry : Position) (ids others : IdSource) :
    shop.line entry ids = shop.line entry others := by
  unfold line
  obtain ⟨finding, hids, hothers⟩ | ⟨program, other, findings, _, _, hids, hothers, hsame⟩ :=
    shop.compileLine_cases entry ids others
  · rw [hids, hothers]
  · rw [hids, hothers]
    exact congrArg Except.ok hsame

/-- Which identities are free has no influence on the programs of several lines
and the findings about them. -/
theorem compileAll_ids (shop : Workshop) (entries : List Position) (ids others : IdSource) :
    (shop.compileAll entries ids).1.anonymous = (shop.compileAll entries others).1.anonymous := by
  induction entries generalizing ids others with
  | nil => rfl
  | cons entry rest ih =>
    rw [compileAll, compileAll]
    obtain ⟨finding, hids, hothers⟩ | ⟨program, other, findings, after, after', hids, hothers,
        hsame⟩ := shop.compileLine_cases entry ids others
    · have hrest := CompileReport.mk.inj (ih ids others)
      rw [hids, hothers]
      simp only [CompileReport.anonymous, hrest]
    · have hrest := CompileReport.mk.inj (ih after after')
      rw [hids, hothers]
      simp only [CompileReport.anonymous, List.map_cons, hsame, hrest]

/-- Which identities are free has no influence on the report on a region. -/
theorem report_ids (shop : Workshop) (region : Region) (ids others : IdSource) :
    shop.report region ids = shop.report region others :=
  shop.compileAll_ids (shop.entriesIn region) ids others

end Workshop

/-- Whether a workshop is another one after changes: nothing has changed, or the
revision or the version has risen. -/
def Workshop.Follows (after before : Workshop) : Prop :=
  after = before ∨
    before.world.revision ≤ after.world.revision ∧
      before.catalogue.version ≤ after.catalogue.version ∧
      (before.world.revision < after.world.revision ∨
        before.catalogue.version < after.catalogue.version)

namespace World

/-- An edit changes nothing or raises the revision. -/
theorem edit_cases (world : World) (change : Edit) :
    world.edit change = world ∨ (world.edit change).revision = world.revision + 1 := by
  cases change with
  | place position symbol => exact .inr rfl
  | label position lines => exact .inr rfl
  | container position slots => exact .inr rfl
  | clear position =>
    rw [edit]
    split
    · exact .inr rfl
    · exact .inl rfl

/-- A world keeps its name. -/
@[simp] theorem name_edit (world : World) (change : Edit) :
    (world.edit change).name = world.name := by
  cases change with
  | place position symbol => rfl
  | label position lines => rfl
  | container position slots => rfl
  | clear position =>
    rw [edit]
    split <;> rfl

end World

/-- A catalogue can be replaced exactly if its version is not the greatest. -/
theorem Catalogue.reload?_eq_none_iff {catalogue other : Catalogue} :
    catalogue.reload? other = none ↔ catalogue.version = 0xFFFFFFFFFFFFFFFF := by
  unfold reload?
  split
  · rename_i hgreatest
    exact iff_of_true rfl hgreatest
  · rename_i hsmaller
    exact iff_of_false nofun hsmaller

/-- A replacement has the version the other catalogue declares or the next one, whichever is
greater. -/
theorem Catalogue.version_of_reload? {catalogue other next : Catalogue}
    (h : catalogue.reload? other = some next) :
    next.version = max other.version (catalogue.version + 1) := by
  unfold reload? at h
  split at h
  · cases h
  · cases h
    rfl

/-- Replacing a catalogue raises its version. -/
theorem Catalogue.version_lt_of_reload? {catalogue other next : Catalogue}
    (h : catalogue.reload? other = some next) : catalogue.version < next.version := by
  have hgreatest : catalogue.version ≠ 0xFFFFFFFFFFFFFFFF := by
    intro heq
    rw [reload?_eq_none_iff.2 heq] at h
    cases h
  have hlt : catalogue.version.toNat < 2 ^ 64 := catalogue.version.toNat_lt
  have hne : catalogue.version.toNat ≠ 2 ^ 64 - 1 := fun heq => hgreatest (UInt64.toNat_inj.1 heq)
  have hsucc : catalogue.version < catalogue.version + 1 := by
    rw [UInt64.lt_iff_toNat_lt, UInt64.toNat_add]
    change _ < (_ + 1) % 2 ^ 64
    omega
  rw [version_of_reload? h]
  change catalogue.version < if other.version ≤ catalogue.version + 1 then _ else _
  split
  · exact hsucc
  · rename_i hgreater
    exact UInt64.lt_trans hsucc (UInt64.not_le.1 hgreater)

/-- Whether a cached result can be trusted: it is not from a later state, and it
shows `now` as long as it is fresh. -/
structure Cached.Sound {α β : Type} (cached : Cached α) (shown : α → β) (now : Workshop → β)
    (shop : Workshop) : Prop where
  /-- The world has not gone back. -/
  revision_le : cached.revision ≤ shop.world.revision
  /-- The catalogue has not gone back. -/
  version_le : cached.catalogueVersion ≤ shop.catalogue.version
  /-- A fresh result is what there is to be seen now. -/
  current : cached.isFresh shop = true → shown cached.value = now shop

namespace Cached

variable {α β : Type} {shown : α → β} {now : Workshop → β}

/-- A new result can be trusted. -/
theorem sound_now {shop : Workshop} {value : α} (h : shown value = now shop) :
    (Cached.now shop value).Sound shown now shop :=
  ⟨Nat.le_refl _, UInt64.le_refl _, fun _ => h⟩

/-- A result that can be trusted stays so whatever happens: where anything has
changed it is not fresh any more. -/
theorem Sound.follows {cached : Cached α} {before after : Workshop}
    (hs : cached.Sound shown now before) (hf : after.Follows before) :
    cached.Sound shown now after := by
  obtain rfl | ⟨hrevision, hversion, hrise⟩ := hf
  · exact hs
  · refine ⟨Nat.le_trans hs.revision_le hrevision, UInt64.le_trans hs.version_le hversion,
      fun hfresh => ?_⟩
    have hsame := Bool.and_eq_true_iff.1 hfresh
    have hsameRevision : cached.revision = after.world.revision := eq_of_beq hsame.1
    have hsameVersion : cached.catalogueVersion = after.catalogue.version := eq_of_beq hsame.2
    have hr := hs.revision_le
    have hv := hs.version_le
    rw [hsameRevision] at hr
    rw [hsameVersion] at hv
    rcases hrise with hlt | hlt
    · exact absurd hlt (Nat.not_lt.2 hr)
    · exact absurd hlt (UInt64.not_lt.2 hv)

end Cached

namespace ProgramCache

/-- A line that is looked up is one that is kept and fresh, or it is compiled and
kept. -/
theorem line_cases (cache : ProgramCache) (shop : Workshop) (entry : Position) (ids : IdSource) :
    (∃ cached, (⟨shop.world.name, entry⟩, cached) ∈ cache.lines.entries ∧
      cached.isFresh shop = true ∧ (cache.line shop entry ids).value = cached.value ∧
      (cache.line shop entry ids).cache = cache) ∨
    ∃ value, value.map Program.anonymous = shop.line entry ids ∧
      (cache.line shop entry ids).value = value ∧
      (cache.line shop entry ids).cache =
        { cache with lines := cache.lines.insert ⟨shop.world.name, entry⟩ (.now shop value) } := by
  unfold line
  dsimp only
  split
  · rename_i cached hfound
    obtain ⟨hget, hfresh⟩ := Option.filter_eq_some_iff.1 hfound
    exact .inl ⟨cached, SortedMap.get?_eq_some_iff.1 hget, hfresh, rfl, rfl⟩
  · unfold Workshop.line
    cases shop.compileLine entry ids with
    | error finding => exact .inr ⟨_, rfl, rfl, rfl⟩
    | ok result => exact .inr ⟨_, rfl, rfl, rfl⟩

/-- A region that is looked up is one that is kept and fresh, or it is compiled
and kept. -/
theorem region_cases (cache : ProgramCache) (shop : Workshop) (region : Region)
    (ids : IdSource) :
    (∃ cached, (⟨shop.world.name, region⟩, cached) ∈ cache.regions.entries ∧
      cached.isFresh shop = true ∧ (cache.region shop region ids).value = cached.value ∧
      (cache.region shop region ids).cache = cache) ∨
    ∃ value, value.anonymous = shop.report region ids ∧
      (cache.region shop region ids).value = value ∧
      (cache.region shop region ids).cache =
        { cache with
          regions := cache.regions.insert ⟨shop.world.name, region⟩ (.now shop value) } := by
  unfold ProgramCache.region
  dsimp only
  split
  · rename_i cached hfound
    obtain ⟨hget, hfresh⟩ := Option.filter_eq_some_iff.1 hfound
    exact .inl ⟨cached, SortedMap.get?_eq_some_iff.1 hget, hfresh, rfl, rfl⟩
  · exact .inr ⟨_, rfl, rfl, rfl⟩

end ProgramCache

/-- Several worlds with one catalogue and one cache. -/
structure Site where
  /-- The worlds by name. -/
  worlds : String → World
  /-- Every world has the name it is known by. -/
  named : ∀ name, (worlds name).name = name
  /-- The catalogue. -/
  catalogue : Catalogue
  /-- The cache. -/
  cache : ProgramCache

/-- What happens to worlds, catalogue and cache. -/
inductive SiteEvent where
  /-- A world is edited. -/
  | edit (world : String) (change : Edit)
  /-- The catalogue is replaced; where that is not possible everything stays as it is. -/
  | reload (other : Catalogue)
  /-- Everything kept about a world is dropped. -/
  | invalidate (world : String)
  /-- Everything kept is dropped. -/
  | clear
  /-- A line is looked up. -/
  | line (world : String) (entry : Position) (ids : IdSource)
  /-- A region is looked up. -/
  | region (world : String) (region : Region) (ids : IdSource)

namespace Site

/-- What the programs of a world are compiled with. -/
def shop (site : Site) (layout : Layout) (world : String) : Workshop :=
  ⟨site.worlds world, site.catalogue, layout⟩

/-- The world programs are compiled in has its name. -/
@[simp] theorem name_shop (site : Site) (layout : Layout) (world : String) :
    (site.shop layout world).world.name = world :=
  site.named world

/-- The site with another cache. -/
def withCache (site : Site) (cache : ProgramCache) : Site :=
  { site with cache }

/-- The site after an event. -/
def step (layout : Layout) (site : Site) : SiteEvent → Site
  | .edit world change =>
    { site with
      worlds := Function.update site.worlds world ((site.worlds world).edit change)
      named := fun name => by
        by_cases h : name = world
        · rw [h, Function.update_self, World.name_edit, site.named]
        · rw [Function.update_of_ne h, site.named] }
  | .reload other =>
    { site with catalogue := (site.catalogue.reload? other).getD site.catalogue }
  | .invalidate world => site.withCache (site.cache.invalidate world)
  | .clear => site.withCache .empty
  | .line world entry ids =>
    site.withCache (site.cache.line (site.shop layout world) entry ids).cache
  | .region world region ids =>
    site.withCache (site.cache.region (site.shop layout world) region ids).cache

/-- The site after several events. -/
def run (layout : Layout) (site : Site) (events : List SiteEvent) : Site :=
  events.foldl (step layout) site

/-- Whether an event may happen: a catalogue of the greatest version is not
replaced, since its version cannot rise. -/
def Allows (site : Site) : SiteEvent → Prop
  | .reload _ => site.catalogue.version ≠ 0xFFFFFFFFFFFFFFFF
  | _ => True

/-- Whether a site allows several events one after the other. -/
def AllowsAll (layout : Layout) (site : Site) : List SiteEvent → Prop
  | [] => True
  | event :: rest => site.Allows event ∧ (site.step layout event).AllowsAll layout rest

/-- Whether everything in the cache of a site can be trusted. -/
structure Coherent (layout : Layout) (site : Site) : Prop where
  /-- Lines can. -/
  lines : ∀ kept ∈ site.cache.lines.entries, kept.2.Sound (Except.map Program.anonymous)
    (fun shop => shop.line kept.1.position .initial) (site.shop layout kept.1.world)
  /-- Regions can. -/
  regions : ∀ kept ∈ site.cache.regions.entries, kept.2.Sound CompileReport.anonymous
    (fun shop => shop.report kept.1.region .initial) (site.shop layout kept.1.world)

variable {layout : Layout} {site : Site}

/-- A cache with nothing in it can be trusted. -/
theorem coherent_of_empty (h : site.cache = .empty) : site.Coherent layout := by
  constructor
  · intro kept hm
    rw [h] at hm
    cases hm
  · intro kept hm
    rw [h] at hm
    cases hm

/-- A cache stays coherent while the worlds and the catalogue go on. -/
theorem Coherent.follows {after : Site} (hc : site.Coherent layout)
    (hcache : after.cache = site.cache)
    (hf : ∀ world, (after.shop layout world).Follows (site.shop layout world)) :
    after.Coherent layout := by
  constructor
  · intro kept hm
    rw [hcache] at hm
    exact (hc.lines kept hm).follows (hf _)
  · intro kept hm
    rw [hcache] at hm
    exact (hc.regions kept hm).follows (hf _)

/-- An edit keeps the cache coherent. -/
theorem Coherent.edit (hc : site.Coherent layout) (world : String) (change : Edit) :
    (site.step layout (.edit world change)).Coherent layout := by
  refine hc.follows rfl fun name => ?_
  by_cases h : name = world
  · subst h
    have hworld : (site.step layout (.edit name change)).worlds name =
        (site.worlds name).edit change := Function.update_self ..
    rcases (site.worlds name).edit_cases change with hsame | hrise
    · refine .inl ?_
      unfold shop
      rw [hworld, hsame]
      rfl
    · have hlt : (site.worlds name).revision <
          ((site.step layout (.edit name change)).worlds name).revision := by
        rw [hworld, hrise]
        omega
      exact .inr ⟨Nat.le_of_lt hlt, UInt64.le_refl _, .inl hlt⟩
  · have hworld : (site.step layout (.edit world change)).worlds name = site.worlds name :=
      Function.update_of_ne h ..
    refine .inl ?_
    unfold shop
    rw [hworld]
    rfl

/-- Replacing a catalogue keeps the cache coherent. -/
theorem Coherent.reload (hc : site.Coherent layout) (other : Catalogue)
    (h : site.catalogue.version ≠ 0xFFFFFFFFFFFFFFFF) :
    (site.step layout (.reload other)).Coherent layout := by
  obtain ⟨next, hnext⟩ : ∃ next, site.catalogue.reload? other = some next :=
    Option.ne_none_iff_exists'.1 fun hnone => h (Catalogue.reload?_eq_none_iff.1 hnone)
  have hstep : site.step layout (.reload other) = { site with catalogue := next } := by
    rw [step, hnext]
    rfl
  rw [hstep]
  refine hc.follows rfl fun world => ?_
  have hlt := Catalogue.version_lt_of_reload? hnext
  exact .inr ⟨Nat.le_refl _, UInt64.le_of_lt hlt, .inr hlt⟩

/-- Dropping results keeps the cache coherent. -/
theorem Coherent.drop (hc : site.Coherent layout) {cache : ProgramCache}
    (hl : cache.lines.entries ⊆ site.cache.lines.entries)
    (hr : cache.regions.entries ⊆ site.cache.regions.entries) :
    (site.withCache cache).Coherent layout :=
  ⟨fun kept hm => hc.lines kept (hl hm), fun kept hm => hc.regions kept (hr hm)⟩

/-- A line that is looked up is what compiling gives. -/
theorem Coherent.line_value (hc : site.Coherent layout) (world : String) (entry : Position)
    (ids fresh : IdSource) :
    (site.cache.line (site.shop layout world) entry ids).value.map Program.anonymous =
      (site.shop layout world).line entry fresh := by
  obtain ⟨cached, hm, hfresh, hvalue, -⟩ | ⟨value, hnow, hvalue, -⟩ :=
    site.cache.line_cases (site.shop layout world) entry ids
  · have hsound := hc.lines _ hm
    rw [site.name_shop] at hsound
    rw [hvalue, hsound.current hfresh]
    exact Workshop.line_ids _ entry _ fresh
  · rw [hvalue, hnow]
    exact Workshop.line_ids _ entry ids fresh

/-- A region that is looked up is what compiling gives. -/
theorem Coherent.region_value (hc : site.Coherent layout) (world : String) (region : Region)
    (ids fresh : IdSource) :
    (site.cache.region (site.shop layout world) region ids).value.anonymous =
      (site.shop layout world).report region fresh := by
  obtain ⟨cached, hm, hfresh, hvalue, -⟩ | ⟨value, hnow, hvalue, -⟩ :=
    site.cache.region_cases (site.shop layout world) region ids
  · have hsound := hc.regions _ hm
    rw [site.name_shop] at hsound
    rw [hvalue, hsound.current hfresh]
    exact Workshop.report_ids _ region _ fresh
  · rw [hvalue, hnow]
    exact Workshop.report_ids _ region ids fresh

/-- Looking up a line keeps the cache coherent. -/
theorem Coherent.line (hc : site.Coherent layout) (world : String) (entry : Position)
    (ids : IdSource) : (site.step layout (.line world entry ids)).Coherent layout := by
  rw [step]
  obtain ⟨cached, -, -, -, hcache⟩ | ⟨value, hnow, -, hcache⟩ :=
    site.cache.line_cases (site.shop layout world) entry ids
  · rw [hcache]
    exact hc
  · rw [hcache]
    refine ⟨fun kept hm => ?_, hc.regions⟩
    rcases SortedMap.mem_entries_insert hm with rfl | hm
    · change Cached.Sound _ _ _ ((site.withCache _).shop layout (site.shop layout world).world.name)
      rw [name_shop]
      exact Cached.sound_now (hnow.trans (Workshop.line_ids _ entry ids _))
    · exact hc.lines kept hm

/-- Looking up a region keeps the cache coherent. -/
theorem Coherent.region (hc : site.Coherent layout) (world : String) (region : Region)
    (ids : IdSource) : (site.step layout (.region world region ids)).Coherent layout := by
  rw [step]
  obtain ⟨cached, -, -, -, hcache⟩ | ⟨value, hnow, -, hcache⟩ :=
    site.cache.region_cases (site.shop layout world) region ids
  · rw [hcache]
    exact hc
  · rw [hcache]
    refine ⟨hc.lines, fun kept hm => ?_⟩
    rcases SortedMap.mem_entries_insert hm with rfl | hm
    · change Cached.Sound _ _ _ ((site.withCache _).shop layout (site.shop layout world).world.name)
      rw [name_shop]
      exact Cached.sound_now (hnow.trans (Workshop.report_ids _ region ids _))
    · exact hc.regions kept hm

/-- Whatever happens, the cache stays coherent. -/
theorem Coherent.step (hc : site.Coherent layout) {event : SiteEvent} (ha : site.Allows event) :
    (site.step layout event).Coherent layout := by
  cases event with
  | edit world change => exact hc.edit world change
  | reload other => exact hc.reload other ha
  | invalidate world => exact hc.drop List.filter_sublist.subset List.filter_sublist.subset
  | clear => exact coherent_of_empty rfl
  | line world entry ids => exact hc.line world entry ids
  | region world region ids => exact hc.region world region ids

/-- However much happens, the cache stays coherent. -/
theorem Coherent.run (hc : site.Coherent layout) {events : List SiteEvent}
    (ha : site.AllowsAll layout events) : (site.run layout events).Coherent layout := by
  induction events generalizing site with
  | nil => exact hc
  | cons event rest ih => exact ih (hc.step ha.1) ha.2

/-- No lookup is ever answered with a stale result. After any events that begin
with an empty cache, a line and a region of any world are what compiling them now
would give, up to the identities of nodes. -/
theorem lookups_current {layout : Layout} {start : Site} {events : List SiteEvent}
    (hempty : start.cache = .empty) (hallowed : start.AllowsAll layout events) (world : String)
    (ids fresh : IdSource) :
    let site := start.run layout events
    let shop := site.shop layout world
    (∀ entry, (site.cache.line shop entry ids).value.map Program.anonymous =
      (shop.compileLine entry fresh).map fun result => result.1.anonymous) ∧
    ∀ region, (site.cache.region shop region ids).value.anonymous =
      (shop.compileRegion region fresh).1.anonymous := by
  intro site shop
  have hcoherent : site.Coherent layout := (coherent_of_empty hempty).run hallowed
  constructor
  · exact fun entry => hcoherent.line_value world entry ids fresh
  · exact fun region => hcoherent.region_value world region ids fresh

/-- Empty worlds with the standard symbols. -/
def fresh : Site :=
  ⟨World.empty, fun _ => rfl, .standard, .empty⟩

/-- Two worlds with a program each; one of them is edited between lookups, a
lookup fails, and the catalogue is replaced. -/
def busyDay : List SiteEvent :=
  [.edit "hub" (.place ⟨0, 0, 0⟩ "event"), .edit "mine" (.place ⟨0, 0, 0⟩ "function"),
    .line "hub" ⟨0, 0, 0⟩ .initial, .line "mine" ⟨0, 0, 0⟩ .initial,
    .edit "mine" (.label ⟨0, 0, -1⟩ ["dig"]), .edit "hub" (.clear ⟨5, 5, 5⟩),
    .region "mine" ⟨⟨0, 0, 0⟩, ⟨9, 9, 9⟩⟩ .initial, .reload .standard, .invalidate "hub",
    .edit "hub" (.clear ⟨0, 0, 0⟩), .clear, .line "hub" ⟨0, 0, 0⟩ .initial,
    .line "mine" ⟨0, 0, 0⟩ .initial]

/-- After such events the lookups in both worlds are current. -/
theorem lookups_current_busyDay :
    fresh.cache = .empty ∧ fresh.AllowsAll .standard busyDay ∧
    ∀ world ids, let site := fresh.run .standard busyDay
      let shop := site.shop .standard world
      (site.cache.line shop ⟨0, 0, 0⟩ ids).value.map Program.anonymous =
        (shop.compileLine ⟨0, 0, 0⟩ .initial).map fun result => result.1.anonymous := by
  have hversion : (1 : UInt64) ≠ 0xFFFFFFFFFFFFFFFF := by decide
  have hallowed : fresh.AllowsAll .standard busyDay :=
    ⟨trivial, trivial, trivial, trivial, trivial, trivial, trivial, hversion, trivial, trivial,
      trivial, trivial, trivial, trivial⟩
  exact ⟨rfl, hallowed, fun world ids =>
    (lookups_current rfl hallowed world ids .initial).1 ⟨0, 0, 0⟩⟩

end Site

end GridScript
