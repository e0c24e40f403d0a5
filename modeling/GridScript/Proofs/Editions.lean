import GridScript.Catalogue.Stored
import GridScript.Proofs.Freshness
import Mathlib

/-!
# Editions of a catalogue

A catalogue is loaded from a document and replaced by ones loaded from other documents, which
declare versions as they please. Every edition has a version above those of all editions before
it, so a program compiled from an earlier edition never passes for a new one. The greatest number
of 64 bits can be declared as well as reached by adding one, and no version stands above it: a
catalogue of that version cannot be replaced, whatever the other one declares.
-/

namespace GridScript

namespace Catalogue

/-- A catalogue that was loaded from a document and then replaced any number of times, and the
versions that its editions had before, latest first. -/
inductive Edition : Catalogue → List UInt64 → Prop where
  /-- The first edition is loaded. -/
  | loaded {text : String} {catalogue : Catalogue} (hload : load text = .ok catalogue) :
    Edition catalogue []
  /-- The edition is replaced by a loaded catalogue. -/
  | reloaded {text : String} {catalogue other next : Catalogue} {past : List UInt64}
    (h : Edition catalogue past) (hload : load text = .ok other)
    (hreload : catalogue.reload? other = some next) : Edition next (catalogue.version :: past)

namespace Edition

variable {catalogue : Catalogue} {past : List UInt64}

/-- Versions rise from edition to edition. -/
theorem versions_descend (h : Edition catalogue past) :
    (catalogue.version :: past).Pairwise (· > ·) := by
  induction h with
  | loaded _ => exact List.pairwise_singleton _ _
  | @reloaded _ before _ next past _ _ hreload ih =>
    have hrise : before.version < next.version := version_lt_of_reload? hreload
    refine List.pairwise_cons.2 ⟨fun version hm => ?_, ih⟩
    rcases List.mem_cons.1 hm with rfl | hm
    · exact hrise
    · exact UInt64.lt_trans ((List.pairwise_cons.1 ih).1 version hm) hrise

/-- A program compiled from an earlier edition is never taken for one of the present edition. -/
theorem outdated {α : Type} (h : Edition catalogue past) {cached : Cached α} {shop : Workshop}
    (hshop : shop.catalogue = catalogue) (hcached : cached.catalogueVersion ∈ past) :
    cached.isFresh shop = false := by
  have hlt := (List.pairwise_cons.1 h.versions_descend).1 _ hcached
  rw [Cached.isFresh, Bool.and_eq_false_iff, beq_eq_false_iff_ne, beq_eq_false_iff_ne, hshop]
  exact .inr (UInt64.ne_of_lt hlt)

/-- Versions rise with every replacement, so that programs compiled from earlier editions are told
from new ones, and a replacement has the version its document declares or the next one. Exactly
the catalogues of the greatest version cannot be replaced. -/
theorem versions_rise_below_greatest (h : Edition catalogue past) :
    (catalogue.version :: past).Pairwise (· > ·) ∧
    (∀ (α : Type) (cached : Cached α) (shop : Workshop), shop.catalogue = catalogue →
      cached.catalogueVersion ∈ past → cached.isFresh shop = false) ∧
    ∀ (text : String) (other : Catalogue), load text = .ok other →
      (catalogue.reload? other = none ↔ catalogue.version = 0xFFFFFFFFFFFFFFFF) ∧
      ∀ next, catalogue.reload? other = some next →
        catalogue.version < next.version ∧
        next.version = max other.version (catalogue.version + 1) :=
  ⟨h.versions_descend, fun _ _ _ => h.outdated, fun _ _ _ =>
    ⟨reload?_eq_none_iff, fun _ hreload => ⟨version_lt_of_reload? hreload,
      version_of_reload? hreload⟩⟩⟩

/-- A catalogue of some version that knows no symbols. -/
def blank (version : UInt64) : Catalogue :=
  ⟨version, .empty, .empty⟩

/-- A document that declares the last version but one. -/
def lastButOne : String :=
  "\x7b\"version\":18446744073709551614,\"symbols\":\x7b\x7d\x7d"

/-- A document that declares the greatest version. -/
def last : String :=
  "\x7b\"version\":18446744073709551615,\"symbols\":\x7b\x7d\x7d"

/-- A document that declares some other version. -/
def seventh : String :=
  "\x7b\"version\":7,\"symbols\":\x7b\x7d\x7d"

/-- A document that declares no version. -/
def undated : String :=
  "\x7b\"symbols\":\x7b\x7d\x7d"

/-- The greatest version is reached by adding one, and the edition that has it is the last. -/
theorem versions_rise_below_greatest_undated :
    (load lastButOne = .ok (blank 0xFFFFFFFFFFFFFFFE) ∧ load undated = .ok (blank 0)) ∧
    Edition (blank 0xFFFFFFFFFFFFFFFF) [0xFFFFFFFFFFFFFFFE] ∧
    ([0xFFFFFFFFFFFFFFFF, 0xFFFFFFFFFFFFFFFE] : List UInt64).Pairwise (· > ·) ∧
    (blank 0xFFFFFFFFFFFFFFFF).reload? (blank 0) = none := by
  have hlast : load lastButOne = .ok (blank 0xFFFFFFFFFFFFFFFE) := by cbv
  have hundated : load undated = .ok (blank 0) := by cbv
  have hreload : (blank 0xFFFFFFFFFFFFFFFE).reload? (blank 0) =
      some (blank 0xFFFFFFFFFFFFFFFF) := rfl
  have hedition : Edition (blank 0xFFFFFFFFFFFFFFFF) [0xFFFFFFFFFFFFFFFE] :=
    .reloaded (.loaded hlast) hundated hreload
  obtain ⟨hdescend, -, hnext⟩ := versions_rise_below_greatest hedition
  exact ⟨⟨hlast, hundated⟩, hedition, hdescend, (hnext undated (blank 0) hundated).1.2 rfl⟩

/-- Two catalogues are loaded, and the first, which declares the greatest version, cannot be
replaced by the second. -/
theorem not_every_reload_rises :
    (load last = .ok (blank 0xFFFFFFFFFFFFFFFF) ∧ load seventh = .ok (blank 7) ∧
      (blank 0xFFFFFFFFFFFFFFFF).reload? (blank 7) = none) ∧
    ¬ ∀ (text document : String) (catalogue other : Catalogue), load text = .ok catalogue →
      load document = .ok other →
        ∃ next, catalogue.reload? other = some next ∧ catalogue.version < next.version := by
  have hlast : load last = .ok (blank 0xFFFFFFFFFFFFFFFF) := by cbv
  have hseventh : load seventh = .ok (blank 7) := by cbv
  have hfails : (blank 0xFFFFFFFFFFFFFFFF).reload? (blank 7) = none := rfl
  refine ⟨⟨hlast, hseventh, hfails⟩, fun hrises => ?_⟩
  obtain ⟨next, hnext, -⟩ := hrises last seventh _ _ hlast hseventh
  cases hfails.symm.trans hnext

end Edition

end Catalogue

end GridScript
