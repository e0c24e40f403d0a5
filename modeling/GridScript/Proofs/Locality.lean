import GridScript.Proofs.Shape
import Mathlib.Algebra.Ring.Nat
import Mathlib.Data.List.Nodup
import Mathlib.Data.Nat.Find

/-!
# Lines compile on their own

What a line compiles to depends on its own cells and on nothing else: on the symbols from its
entry up to the cell where the line stops, and on the labels and containers that belong to
them. Which cells these are depends on what stands in them, so two worlds that agree on the
cells of the line in one of them also agree on where it stops. A region gives what its lines
give one by one, in scan order, and every entry in it accounts for one program or one error.
-/

namespace GridScript

/-- Whether two worlds agree on a cell: on its symbol, and on the label and the container that
belong to it. -/
structure World.AgreeAt (layout : Layout) (world other : World) (cell : Position) : Prop where
  /-- The same symbol stands there. -/
  symbol : other.symbolAt? cell = world.symbolAt? cell
  /-- It has the same label. -/
  label : other.labelAt? (layout.label cell) = world.labelAt? (layout.label cell)
  /-- It has the same container. -/
  container : other.containerAt? (layout.container cell) =
    world.containerAt? (layout.container cell)

/-- Whether an edit leaves a cell alone, and the label and the container that belong to it. -/
def Edit.Spares (layout : Layout) (cell : Position) : Edit → Prop
  | .place position _ => position ≠ cell
  | .label position _ => position ≠ layout.label cell
  | .container position _ => position ≠ layout.container cell
  | .clear position =>
    position ≠ cell ∧ position ≠ layout.label cell ∧ position ≠ layout.container cell

instance (layout : Layout) (cell : Position) (edit : Edit) :
    Decidable (edit.Spares layout cell) :=
  match edit with
  | .place position _ => inferInstanceAs (Decidable (position ≠ cell))
  | .label position _ => inferInstanceAs (Decidable (position ≠ layout.label cell))
  | .container position _ => inferInstanceAs (Decidable (position ≠ layout.container cell))
  | .clear position => inferInstanceAs (Decidable (position ≠ cell ∧
      position ≠ layout.label cell ∧ position ≠ layout.container cell))

namespace SortedMap

variable {κ α : Type} [Ord κ] [Std.TransOrd κ] [Std.LawfulEqOrd κ]

/-- An insertion changes nothing under other keys. -/
theorem get?_insert_of_ne (map : SortedMap κ α) {key other : κ} (value : α) (h : key ≠ other) :
    (map.insert key value).get? other = map.get? other := by
  rw [get?_insert, if_neg]
  exact fun heq => h (Std.LawfulEqOrd.eq_of_compare heq).symm

/-- A removal changes nothing under other keys. -/
theorem get?_erase_of_ne (map : SortedMap κ α) {key other : κ} (h : key ≠ other) :
    (map.erase key).get? other = map.get? other := by
  rw [get?_erase, if_neg]
  exact fun heq => h (Std.LawfulEqOrd.eq_of_compare heq).symm

end SortedMap

namespace World

variable {layout : Layout} {world other third : World} {cell : Position}

theorem AgreeAt.refl (layout : Layout) (world : World) (cell : Position) :
    AgreeAt layout world world cell :=
  ⟨rfl, rfl, rfl⟩

theorem AgreeAt.trans (h : AgreeAt layout world other cell)
    (h' : AgreeAt layout other third cell) : AgreeAt layout world third cell :=
  ⟨h'.symbol.trans h.symbol, h'.label.trans h.label, h'.container.trans h.container⟩

/-- An edit changes nothing about a cell that it leaves alone. -/
theorem agreeAt_edit (world : World) {change : Edit} (h : change.Spares layout cell) :
    AgreeAt layout world (world.edit change) cell := by
  cases change with
  | place position symbol => exact ⟨world.symbols.get?_insert_of_ne symbol h, rfl, rfl⟩
  | label position lines => exact ⟨rfl, world.labels.get?_insert_of_ne lines h, rfl⟩
  | container position slots => exact ⟨rfl, rfl, world.containers.get?_insert_of_ne slots h⟩
  | clear position =>
    rw [edit]
    split
    · exact ⟨world.symbols.get?_erase_of_ne h.1, world.labels.get?_erase_of_ne h.2.1,
        world.containers.get?_erase_of_ne h.2.2⟩
    · exact .refl layout world cell

/-- The world after several changes. -/
def editAll (world : World) (changes : List Edit) : World :=
  changes.foldl edit world

theorem name_editAll (world : World) (changes : List Edit) :
    (world.editAll changes).name = world.name := by
  induction changes generalizing world with
  | nil => rfl
  | cons change rest ih => exact (ih (world.edit change)).trans (world.name_edit change)

/-- Edits change nothing about a cell that all of them leave alone. -/
theorem agreeAt_editAll (world : World) {changes : List Edit}
    (h : ∀ change ∈ changes, change.Spares layout cell) :
    AgreeAt layout world (world.editAll changes) cell := by
  induction changes generalizing world with
  | nil => exact .refl layout world cell
  | cons change rest ih =>
    rw [List.forall_mem_cons] at h
    exact (world.agreeAt_edit h.1).trans (ih (world.edit change) h.2)

end World

/-- A line starts in the cell of its entry. -/
@[simp] theorem Layout.cell_zero (layout : Layout) (entry : Position) :
    layout.cell entry 0 = entry := by
  change Position.mk (_ + _ * (_ * 0)) (_ + _ * (_ * 0)) (_ + _ * (_ * 0)) = entry
  simp only [Int32.mul_zero, Int32.add_zero]

namespace Workshop

/-- Whether a program starts in a cell. -/
def entryAt (shop : Workshop) (cell : Position) : Bool :=
  ((shop.world.symbolAt? cell).bind shop.catalogue.symbol?).any fun spec =>
    spec.category.isEntry && spec.bracket == .plain

/-- Whether a line that reaches a cell ends there: the cell is empty, or another program
starts in it. -/
def endsAt (shop : Workshop) (cell : Position) : Bool :=
  (shop.world.symbolAt? cell).isNone || shop.entryAt cell

/-- Whether an index is the last one of a line that is looked at. The line goes on before it,
and there it ends or has its greatest length. -/
structure StopsAt (shop : Workshop) (entry : Position) (last : Nat) : Prop where
  /-- The line goes on before. -/
  goesOn : ∀ index, 1 ≤ index → index < last →
    shop.endsAt (shop.layout.cell entry index) = false
  /-- The line has its greatest length there, or it ends. -/
  stops : shop.layout.maxLineLength ≤ last + 1 ∨
    1 ≤ last ∧ shop.endsAt (shop.layout.cell entry last) = true
  /-- The greatest length is kept; the entry is always looked at. -/
  within : last < max shop.layout.maxLineLength 1

variable {shop : Workshop} {entry cell : Position}

/-- Every line stops somewhere. -/
theorem exists_stopsAt (shop : Workshop) (entry : Position) : ∃ last, shop.StopsAt entry last := by
  obtain hshort | hlong := Nat.lt_or_ge shop.layout.maxLineLength 2
  · exact ⟨0, by omega, .inl (by omega), by omega⟩
  have hexists : ∃ index, 1 ≤ index ∧ (shop.layout.maxLineLength ≤ index + 1 ∨
      shop.endsAt (shop.layout.cell entry index) = true) :=
    ⟨shop.layout.maxLineLength - 1, by omega, .inl (by omega)⟩
  classical
  obtain ⟨hpositive, hstops⟩ := Nat.find_spec hexists
  refine ⟨Nat.find hexists, fun index hindex hlt => ?_, ?_, ?_⟩
  · have hfirst := Nat.find_min hexists hlt
    rw [not_and_or, not_or] at hfirst
    obtain hzero | hbefore := hfirst
    · exact absurd hindex hzero
    · exact Bool.eq_false_iff.2 hbefore.2
  · exact hstops.imp_right fun hends => ⟨hpositive, hends⟩
  · have hle : Nat.find hexists ≤ shop.layout.maxLineLength - 1 :=
      Nat.find_min' hexists ⟨by omega, .inl (by omega)⟩
    omega

/-- An index at which a line stops is not before another one. -/
theorem StopsAt.le {last other : Nat} (h : shop.StopsAt entry last)
    (h' : shop.StopsAt entry other) : other ≤ last := by
  by_contra hlt
  have hwithin := h'.within
  obtain hlong | ⟨hpositive, hends⟩ := h.stops
  · omega
  · rw [h'.goesOn last hpositive (by omega)] at hends
    cases hends

/-- Every line stops at one index. -/
theorem existsUnique_stopsAt (shop : Workshop) (entry : Position) :
    ∃! last, shop.StopsAt entry last := by
  obtain ⟨last, h⟩ := shop.exists_stopsAt entry
  exact ⟨last, h, fun other h' => Nat.le_antisymm (h.le h') (h'.le h)⟩

/-- A scan that reaches the end of a line stops. -/
theorem scan_of_endsAt {fuel index : Nat}
    (h : shop.endsAt (shop.layout.cell entry index) = true) :
    shop.scan entry fuel index = ([], []) := by
  cases fuel with
  | zero => rfl
  | succ fuel =>
    rw [endsAt, entryAt] at h
    rw [scan]
    cases hsymbol : shop.world.symbolAt? (shop.layout.cell entry index) with
    | none => rfl
    | some symbol =>
      cases hspec : shop.catalogue.symbol? symbol with
      | none => simp [hsymbol, hspec] at h
      | some spec =>
        simp only [hsymbol, Option.isNone_some, Option.bind_some, hspec, Option.any_some,
          Bool.false_or, Bool.and_eq_true, beq_iff_eq] at h
        simp [h.1, h.2, hspec]

/-- The workshop in another world. -/
def inWorld (shop : Workshop) (other : World) : Workshop :=
  { shop with world := other }

@[simp] theorem world_inWorld (shop : Workshop) (other : World) :
    (shop.inWorld other).world = other := rfl

@[simp] theorem layout_inWorld (shop : Workshop) (other : World) :
    (shop.inWorld other).layout = shop.layout := rfl

@[simp] theorem catalogue_inWorld (shop : Workshop) (other : World) :
    (shop.inWorld other).catalogue = shop.catalogue := rfl

section Agreement

variable {other : World} (hname : other.name = shop.world.name)

/-- Whether a program starts in a cell depends on that cell. -/
theorem entryAt_inWorld (h : shop.world.AgreeAt shop.layout other cell) :
    (shop.inWorld other).entryAt cell = shop.entryAt cell := by
  simp only [entryAt, world_inWorld, catalogue_inWorld, h.symbol]

include hname

/-- The node of a symbol depends on the cell of the symbol. -/
theorem readNode_inWorld (h : shop.world.AgreeAt shop.layout other cell) (symbol : String)
    (spec : SymbolSpec) :
    (shop.inWorld other).readNode cell symbol spec = shop.readNode cell symbol spec := by
  simp only [readNode, readParams, readings, world_inWorld, layout_inWorld, catalogue_inWorld,
    h.label, h.container, hname]

/-- The entry of a line depends on the cell of the entry. -/
theorem readEntry_inWorld (h : shop.world.AgreeAt shop.layout other cell) :
    (shop.inWorld other).readEntry cell = shop.readEntry cell := by
  simp only [readEntry, readHeader, readNode_inWorld hname h, world_inWorld, layout_inWorld,
    catalogue_inWorld, h.symbol, h.label, h.container]

/-- What is scanned depends on the cells that the scan gets to. -/
theorem scan_inWorld {fuel index : Nat}
    (h : ∀ later, index ≤ later → later < index + fuel →
      (∀ before, index ≤ before → before < later →
        shop.endsAt (shop.layout.cell entry before) = false) →
      shop.world.AgreeAt shop.layout other (shop.layout.cell entry later)) :
    (shop.inWorld other).scan entry fuel index = shop.scan entry fuel index := by
  induction fuel generalizing index with
  | zero => rfl
  | succ fuel ih =>
    have hcell := h index (Nat.le_refl _) (by omega) (by omega)
    cases hends : shop.endsAt (shop.layout.cell entry index) with
    | true =>
      have hends' : (shop.inWorld other).endsAt (shop.layout.cell entry index) = true := by
        rw [endsAt, entryAt_inWorld hcell, world_inWorld, hcell.symbol]
        exact hends
      rw [scan_of_endsAt hends, scan_of_endsAt hends']
    | false =>
      have hrest : (shop.inWorld other).scan entry fuel (index + 1) =
          shop.scan entry fuel (index + 1) := by
        refine ih fun later hle hlt hgoesOn => ?_
        refine h later (by omega) (by omega) fun before hfrom hbefore => ?_
        obtain rfl | hne := Nat.eq_or_lt_of_le hfrom
        · exact hends
        · exact hgoesOn before hne hbefore
      simp only [scan, world_inWorld, layout_inWorld, catalogue_inWorld, hcell.symbol,
        readNode_inWorld hname hcell, hrest]

/-- A line compiles to the same in every world of that name that agrees on its cells. -/
theorem compileLine_inWorld {last : Nat} (hstops : shop.StopsAt entry last)
    (h : ∀ index ≤ last, shop.world.AgreeAt shop.layout other (shop.layout.cell entry index))
    (ids : IdSource) :
    (shop.inWorld other).compileLine entry ids = shop.compileLine entry ids := by
  have hentry : shop.world.AgreeAt shop.layout other entry := by
    simpa only [Layout.cell_zero] using h 0 (Nat.zero_le _)
  have hscan : (shop.inWorld other).scan entry (shop.layout.maxLineLength - 1) 1 =
      shop.scan entry (shop.layout.maxLineLength - 1) 1 := by
    refine scan_inWorld hname fun index hpositive hlt hgoesOn => h index ?_
    by_contra hbehind
    obtain hlong | ⟨hfirst, hends⟩ := hstops.stops
    · omega
    · rw [hgoesOn last hfirst (by omega)] at hends
      cases hends
  simp only [compileLine, readEntry_inWorld hname hentry, layout_inWorld, catalogue_inWorld,
    world_inWorld, hscan, hname]

end Agreement

/-- What compiling a line gives, up to identities: its program and the findings about it, or
why there is none. -/
def outcome (shop : Workshop) (entry : Position) (ids : IdSource) :
    Except CompileError (Program × List CompileError) :=
  (shop.compileLine entry ids).map fun result => (result.1.anonymous, result.2.1)

/-- Which identities are free has no influence on what a line gives. -/
theorem outcome_ids (shop : Workshop) (entry : Position) (ids others : IdSource) :
    shop.outcome entry ids = shop.outcome entry others := by
  unfold outcome
  obtain ⟨finding, hids, hothers⟩ | ⟨program, other, findings, _, _, hids, hothers, hsame⟩ :=
    shop.compileLine_cases entry ids others
  · rw [hids, hothers]
  · rw [hids, hothers]
    exact congrArg (fun shown => Except.ok (shown, findings)) hsame

end Workshop

/-- The report on a single line. -/
def CompileReport.ofOutcome : Except CompileError (Program × List CompileError) → CompileReport
  | .ok (program, findings) => ⟨[program], findings.map (⟨.warning, ·⟩)⟩
  | .error finding => ⟨[], [⟨.error, finding⟩]⟩

/-- What a line adds to the report on a region, up to identities. -/
def Workshop.share (shop : Workshop) (entry : Position) : CompileReport :=
  .ofOutcome (shop.outcome entry .initial)

/-- Reports one after the other. -/
def CompileReport.join (reports : List CompileReport) : CompileReport where
  programs := reports.flatMap CompileReport.programs
  diagnostics := reports.flatMap CompileReport.diagnostics

/-- The cell that a finding is about. -/
def CompileError.position : CompileError → Position
  | .noSymbol position => position
  | .unknownSymbol _ position => position
  | .notAnEntry _ position => position
  | .unresolvedAction _ position _ => position
  | .badSlot position _ _ => position
  | .orphanOpen position => position
  | .unmatchedClose position => position
  | .unclosedOpen position => position
  | .missingFunctionName position => position
  | .badParameterSpec position _ => position

/-- How many programs and errors of a report are about the entry in a cell. -/
def CompileReport.verdictsAt (report : CompileReport) (cell : Position) : Nat :=
  report.programs.countP (fun program => program.origin.position = cell) +
    report.diagnostics.countP fun diagnostic =>
      diagnostic.severity = .error ∧ diagnostic.error.position = cell

namespace CompileReport

/-- Identities have no influence on what a report is about. -/
@[simp] theorem verdictsAt_anonymous (report : CompileReport) (cell : Position) :
    report.anonymous.verdictsAt cell = report.verdictsAt cell := by
  rw [verdictsAt, verdictsAt, anonymous, List.countP_map]
  rfl

/-- The verdicts of joined reports are those of the single ones. -/
theorem verdictsAt_join (reports : List CompileReport) (cell : Position) :
    (join reports).verdictsAt cell = (reports.map (·.verdictsAt cell)).sum := by
  induction reports with
  | nil => rfl
  | cons report rest ih =>
    rw [List.map_cons, List.sum_cons, ← ih]
    simp only [verdictsAt, join, List.flatMap_cons, List.countP_append]
    omega

end CompileReport

namespace Workshop

variable {shop : Workshop} {entry cell : Position}

/-- An entry that cannot be read is the cell that the error is about. -/
theorem position_of_readEntry {finding : CompileError}
    (h : shop.readEntry entry = .error finding) : finding.position = entry := by
  rw [readEntry] at h
  split at h
  · cases h
    rfl
  split at h
  · cases h
    rfl
  split at h
  · cases h
  split at h
  · simp only [readHeader] at h
    split at h
    · cases h
      rfl
    · cases h
  · cases h
    rfl

/-- A line gives a program that starts at its entry, or an error about its entry. -/
theorem outcome_cases (shop : Workshop) (entry : Position) (ids : IdSource) :
    (∃ program findings, shop.outcome entry ids = .ok (program, findings) ∧
      program.origin = ⟨shop.world.name, entry⟩) ∨
    ∃ finding, shop.outcome entry ids = .error finding ∧ finding.position = entry := by
  rw [outcome, compileLine]
  cases hentry : shop.readEntry entry with
  | error finding => exact .inr ⟨finding, rfl, position_of_readEntry hentry⟩
  | ok start => exact .inl ⟨_, _, rfl, rfl⟩

/-- A line gives one program or one error, and it is about the entry of the line. -/
theorem verdictsAt_share (shop : Workshop) (entry cell : Position) :
    (shop.share entry).verdictsAt cell = if entry = cell then 1 else 0 := by
  rw [share]
  obtain ⟨program, findings, houtcome, horigin⟩ | ⟨finding, houtcome, hposition⟩ :=
    shop.outcome_cases entry .initial
  · have hwarnings : (findings.map (Diagnostic.mk .warning)).countP (fun diagnostic =>
        diagnostic.severity = .error ∧ diagnostic.error.position = cell) = 0 :=
      List.countP_eq_zero.2 fun diagnostic hm => by
        obtain ⟨finding, -, rfl⟩ := List.mem_map.1 hm
        simp
    rw [houtcome, CompileReport.ofOutcome]
    simp only [CompileReport.verdictsAt, hwarnings, List.countP_singleton, horigin,
      decide_eq_true_eq, Nat.add_zero]
  · rw [houtcome, CompileReport.ofOutcome]
    simp [CompileReport.verdictsAt, List.countP_singleton, hposition]

/-- Several lines give what the single ones give, one after the other. -/
theorem compileAll_eq_join (shop : Workshop) (entries : List Position) (ids : IdSource) :
    (shop.compileAll entries ids).1.anonymous = .join (entries.map shop.share) := by
  induction entries generalizing ids with
  | nil => rfl
  | cons entry rest ih =>
    have hshare : shop.share entry = .ofOutcome (shop.outcome entry ids) := by
      rw [share, shop.outcome_ids entry .initial ids]
    rw [compileAll, List.map_cons, hshare, outcome]
    cases hline : shop.compileLine entry ids with
    | error finding =>
      have hrest := CompileReport.mk.inj (ih ids)
      simp only [CompileReport.anonymous, CompileReport.join, List.flatMap_cons, hrest,
        Except.map, CompileReport.ofOutcome, List.nil_append, List.singleton_append]
    | ok result =>
      obtain ⟨program, findings, after⟩ := result
      have hrest := CompileReport.mk.inj (ih after)
      simp only [CompileReport.anonymous, CompileReport.join, List.flatMap_cons, hrest,
        Except.map, CompileReport.ofOutcome, List.map_cons, List.singleton_append]

end Workshop

instance : Std.TransCmp Position.scanOrder :=
  inferInstanceAs (Std.TransCmp
    (compareLex (compareOn Position.z) (compareLex (compareOn Position.y) (compareOn Position.x))))

/-- Cells have different places in the scan order. -/
theorem Position.eq_of_scanOrder {a b : Position} (h : Position.scanOrder a b = .eq) : a = b := by
  obtain ⟨hz, hyx⟩ := compareLex_eq_eq.1 h
  obtain ⟨hy, hx⟩ := compareLex_eq_eq.1 hyx
  obtain ⟨x, y, z⟩ := a
  obtain rfl : x = b.x := Std.LawfulEqOrd.eq_of_compare hx
  obtain rfl : y = b.y := Std.LawfulEqOrd.eq_of_compare hy
  obtain rfl : z = b.z := Std.LawfulEqOrd.eq_of_compare hz
  rfl

namespace Workshop

variable {shop : Workshop} {entry cell : Position}

/-- The entries of a region are the cells in it where programs start. -/
theorem mem_entriesIn {region : Region} :
    cell ∈ shop.entriesIn region ↔ region.contains cell = true ∧ shop.entryAt cell = true := by
  simp only [entriesIn, List.mem_mergeSort, List.mem_map, List.mem_filter, World.symbolsIn,
    Prod.exists, exists_and_right, exists_eq_right, entryAt, World.symbolAt?,
    ← SortedMap.get?_eq_some_iff]
  cases hsymbol : shop.world.symbols.get? cell with
  | none => simp
  | some symbol => cases hspec : shop.catalogue.symbol? symbol <;> simp [hspec]

/-- No entry of a region comes twice. -/
theorem entriesIn_nodup (shop : Workshop) (region : Region) :
    (shop.entriesIn region).Nodup := by
  have hkeys : (shop.world.symbols.entries.map Prod.fst).Nodup :=
    List.pairwise_map.2 (shop.world.symbols.ascending.imp fun hlt heq => by
      rw [heq, Std.compare_self] at hlt
      cases hlt)
  rw [entriesIn, (List.mergeSort_perm ..).nodup_iff]
  exact hkeys.sublist ((List.filter_sublist.trans List.filter_sublist).map _)

/-- The entries of a region come in strict scan order. -/
theorem entriesIn_pairwise (shop : Workshop) (region : Region) :
    (shop.entriesIn region).Pairwise fun a b => Position.scanOrder a b = .lt := by
  have hsorted : (shop.entriesIn region).Pairwise fun a b =>
      (Position.scanOrder a b).isLE = true :=
    List.pairwise_mergeSort (fun _ _ _ => Std.TransCmp.isLE_trans)
      (fun a b => by
        have hswap : Position.scanOrder a b = (Position.scanOrder b a).swap :=
          Std.OrientedCmp.eq_swap
        rw [hswap]
        cases Position.scanOrder b a <;> rfl) _
  refine (hsorted.and (shop.entriesIn_nodup region)).imp fun {a b} h => ?_
  cases horder : Position.scanOrder a b with
  | lt => rfl
  | eq => exact absurd (Position.eq_of_scanOrder horder) h.2
  | gt =>
    rw [horder] at h
    exact absurd h.1 (by decide)

/-- Programs come in the order of the entries they start at. -/
theorem origins_sublist (shop : Workshop) (entries : List Position) :
    ((CompileReport.join (entries.map shop.share)).programs.map (·.origin.position)).Sublist
      entries := by
  induction entries with
  | nil => exact List.Sublist.slnil
  | cons entry rest ih =>
    simp only [CompileReport.join, List.map_cons, List.flatMap_cons, List.map_append] at ih ⊢
    rw [share]
    obtain ⟨program, findings, houtcome, horigin⟩ | ⟨finding, houtcome, -⟩ :=
      shop.outcome_cases entry .initial
    · rw [houtcome, CompileReport.ofOutcome]
      simp only [List.map_cons, List.map_nil, horigin, List.singleton_append]
      exact ih.cons_cons entry
    · rw [houtcome]
      exact ih.cons entry

/-- Every entry accounts for one verdict. -/
theorem verdictsAt_shares (shop : Workshop) (entries : List Position) (cell : Position) :
    (CompileReport.join (entries.map shop.share)).verdictsAt cell = entries.count cell := by
  rw [CompileReport.verdictsAt_join, List.map_map]
  induction entries with
  | nil => rfl
  | cons entry rest ih =>
    rw [List.map_cons, List.sum_cons, ih, Function.comp_apply, verdictsAt_share, List.count_cons,
      Nat.add_comm]
    simp only [beq_iff_eq]

/-- A line gives the same in every world of that name that agrees on its cells. -/
theorem outcome_inWorld {other : World} {last : Nat} (hstops : shop.StopsAt entry last)
    (hname : other.name = shop.world.name)
    (h : ∀ index ≤ last, shop.world.AgreeAt shop.layout other (shop.layout.cell entry index))
    (ids others : IdSource) :
    (shop.inWorld other).outcome entry others = shop.outcome entry ids := by
  rw [outcome, compileLine_inWorld hname hstops h others]
  exact shop.outcome_ids entry others ids

/-- Edits of other cells change neither what a line adds to a report nor in which regions it
has its entry. -/
theorem share_editAll {last : Nat} (hstops : shop.StopsAt entry last) {changes : List Edit}
    (hspared : ∀ index ≤ last, ∀ change ∈ changes,
      change.Spares shop.layout (shop.layout.cell entry index)) :
    let edited := shop.inWorld (shop.world.editAll changes)
    edited.share entry = shop.share entry ∧
    ∀ region, entry ∈ edited.entriesIn region ↔ entry ∈ shop.entriesIn region := by
  have hagree : ∀ index ≤ last, shop.world.AgreeAt shop.layout (shop.world.editAll changes)
      (shop.layout.cell entry index) :=
    fun index hle => shop.world.agreeAt_editAll (hspared index hle)
  have hentry := hagree 0 (Nat.zero_le _)
  rw [Layout.cell_zero] at hentry
  constructor
  · rw [share, share, outcome_inWorld hstops (shop.world.name_editAll changes) hagree]
  · intro region
    rw [mem_entriesIn, mem_entriesIn, entryAt_inWorld hentry]

/-- Every cell of a region where a program starts accounts for one program or one error, and
no other cell does. -/
theorem verdictsAt_compileRegion (shop : Workshop) (region : Region) (ids : IdSource)
    (cell : Position) :
    (shop.compileRegion region ids).1.verdictsAt cell =
      if region.contains cell ∧ shop.entryAt cell then 1 else 0 := by
  have hcount := shop.verdictsAt_shares (shop.entriesIn region) cell
  rw [← shop.compileAll_eq_join (shop.entriesIn region) ids,
    CompileReport.verdictsAt_anonymous] at hcount
  rw [compileRegion, hcount]
  split
  · rename_i hmem
    exact List.nodup_iff_count_eq_one.1 (shop.entriesIn_nodup region) cell (mem_entriesIn.2 hmem)
  · rename_i hmem
    exact List.count_eq_zero.2 fun h => hmem (mem_entriesIn.1 h)

/-- Lines compile on their own. Every line stops at one index. What it gives, up to identities,
is the same in every world of that name that agrees on its cells up to that index; so no edit of
other cells changes what it adds to the report on a region, nor whether it has a part in it. A
report is what the entries of its region add in strict scan order, and every cell where a
program starts accounts for one program or one error. -/
theorem lines_compile_locally (shop : Workshop) (entry : Position) :
    (∃! last, shop.StopsAt entry last) ∧
    (∀ last, shop.StopsAt entry last →
      (∀ other : World, other.name = shop.world.name →
        (∀ index ≤ last, shop.world.AgreeAt shop.layout other (shop.layout.cell entry index)) →
        ∀ ids others, (shop.inWorld other).outcome entry others = shop.outcome entry ids) ∧
      ∀ changes : List Edit,
        (∀ index ≤ last, ∀ change ∈ changes,
          change.Spares shop.layout (shop.layout.cell entry index)) →
        let edited := shop.inWorld (shop.world.editAll changes)
        edited.share entry = shop.share entry ∧
        ∀ region, entry ∈ edited.entriesIn region ↔ entry ∈ shop.entriesIn region) ∧
    ∀ region ids, let report := (shop.compileRegion region ids).1
      report.anonymous = .join ((shop.entriesIn region).map shop.share) ∧
      (shop.entriesIn region).Pairwise (fun a b => Position.scanOrder a b = .lt) ∧
      (report.programs.map (·.origin.position)).Pairwise
        (fun a b => Position.scanOrder a b = .lt) ∧
      ∀ cell, report.verdictsAt cell =
        if region.contains cell ∧ shop.entryAt cell then 1 else 0 := by
  refine ⟨shop.existsUnique_stopsAt entry, fun last hstops => ⟨?_, ?_⟩, fun region ids => ?_⟩
  · exact fun other hname hagree => outcome_inWorld hstops hname hagree
  · exact fun changes hspared => share_editAll hstops hspared
  · have hreport := shop.compileAll_eq_join (shop.entriesIn region) ids
    have hordered := shop.entriesIn_pairwise region
    refine ⟨hreport, hordered, ?_, shop.verdictsAt_compileRegion region ids⟩
    have hsublist := shop.origins_sublist (shop.entriesIn region)
    rw [← hreport, CompileReport.anonymous, List.map_map] at hsublist
    exact hordered.sublist hsublist

/-- A line that says something, and behind it the header of a function without a name. -/
def neighbours : Workshop where
  world := (World.empty "hub").editAll [.place ⟨0, 0, 0⟩ "event", .place ⟨2, 0, 0⟩ "action",
    .label ⟨2, 0, -1⟩ ["say"], .container ⟨2, 1, 0⟩ [some ⟨"paper", 1, some "hello"⟩],
    .place ⟨0, 0, 4⟩ "function"]
  catalogue := .standard
  layout := .standard

/-- The function is removed, and other cells are filled. -/
def rebuilding : List Edit :=
  [.clear ⟨0, 0, 4⟩, .place ⟨2, 1, 0⟩ "event", .label ⟨0, 5, -1⟩ ["join"]]

/-- The line that says something stops at the empty cell behind it. Its neighbour accounts for
an error; once that is removed and another entry stands elsewhere, the line gives what it
gave. -/
theorem lines_compile_locally_neighbours :
    neighbours.StopsAt ⟨0, 0, 0⟩ 2 ∧
    (neighbours.compileRegion ⟨⟨0, 0, 0⟩, ⟨9, 9, 9⟩⟩ .initial).1.verdictsAt ⟨0, 0, 4⟩ = 1 ∧
    let edited := neighbours.inWorld (neighbours.world.editAll rebuilding)
    edited.entryAt ⟨0, 0, 4⟩ = false ∧ edited.entryAt ⟨2, 1, 0⟩ = true ∧
    edited.share ⟨0, 0, 0⟩ = neighbours.share ⟨0, 0, 0⟩ := by
  have hstops : neighbours.StopsAt ⟨0, 0, 0⟩ 2 := by
    refine ⟨fun index hpositive hlt => ?_, .inr (by decide +kernel), by decide⟩
    obtain rfl : index = 1 := by omega
    decide +kernel
  have hspared : ∀ index ≤ 2, ∀ change ∈ rebuilding,
      change.Spares neighbours.layout (neighbours.layout.cell ⟨0, 0, 0⟩ index) := by
    decide +kernel
  obtain ⟨-, hlines, hregions⟩ := lines_compile_locally neighbours ⟨0, 0, 0⟩
  obtain ⟨-, hedits⟩ := hlines 2 hstops
  obtain ⟨-, -, -, hverdicts⟩ := hregions ⟨⟨0, 0, 0⟩, ⟨9, 9, 9⟩⟩ .initial
  refine ⟨hstops, ?_, by decide +kernel, by decide +kernel, (hedits rebuilding hspared).1⟩
  rw [hverdicts]
  decide +kernel

end Workshop

end GridScript
