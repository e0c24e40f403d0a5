import GridScript.Proofs.Punctuality
import GridScript.Proofs.Totals

/-!
# Budgets of steps

A run makes no more steps in one tick than it may: it executes at most one slice while
the tick stays the same. That is a matter of the scheduler. A run that was just started
has not executed anything, and one that is in the queue has not either. A run that was
taken up and waits again is due in a later tick, so its new entry is not one of those
that are taken up. The last tick there is makes the only exception: what waits in it is
due in it again. A run that does so is taken up until it ends, so nothing of it is left
when the tick begins anew.

As entries tell runs apart by their keys, this holds as long as no slot is worn out. The other
parts of the budget do not depend on that: how many steps a slice makes, which runs fail for their
number, and that a report has the steps of all slices since its run was started.
-/

namespace GridScript

open Journal

/-- If no two members of a list pass a test, at most one does. -/
theorem List.countP_le_one_of_pairwise {α : Type} {test : α → Bool} {list : List α}
    (h : list.Pairwise fun first second => test first → ¬test second) : list.countP test ≤ 1 := by
  induction list with
  | nil => exact Nat.zero_le 1
  | cons first rest ih =>
    obtain ⟨hfirst, hrest⟩ := List.pairwise_cons.1 h
    rw [List.countP_cons]
    split
    · rename_i hpasses
      rw [List.countP_eq_zero.2 fun second hm => hfirst second hm hpasses]
    · exact ih hrest

variable {σ ρ : Type} [Host σ] [RandomSource ρ]

namespace Engine

variable {engine after : Engine σ ρ} {deed : Deed σ ρ} {deeds : List (Deed σ ρ)} {key : RunKey}
  {stage : Staging σ ρ}

/-- The slice continues the journal. -/
theorem Staged.executed {staged : Engine σ ρ} (h : Staged engine deed key staged) :
    staged.journal <:+ (engine.carryOut deed).journal := by
  rw [h.carryOut]
  exact h.inOrder.runSlice.2.journal

/-- A run that executes a slice in a deed is there right before. -/
theorem InOrder.staged_of_stagingOf? (hi : engine.InOrder []) (ha : engine.Admits deed)
    (h : engine.stagingOf? deed = some stage) :
    engine.staging? deed = some (stage.key, stage.engine) ∧
      stage.engine.runs.get? stage.key = some stage.run ∧
      Staged engine deed stage.key stage.engine := by
  obtain ⟨⟨key, staged⟩, hstaging, hrun⟩ := Option.bind_eq_some_iff.1 h
  obtain ⟨run, hk, rfl⟩ := Option.map_eq_some_iff.1 hrun
  exact ⟨hstaging, hk, hi.staged ha hstaging⟩

/-- A run that is still under way after its slice was parked. -/
theorem parked?_of_stagingOf? (hi : engine.InOrder []) (ha : engine.Admits deed)
    (h : engine.stagingOf? deed = some stage)
    (hk : ((engine.carryOut deed).runs.get? stage.key).isSome) :
    ∃ ticks, engine.parked? deed = some (stage.key, ticks) := by
  obtain ⟨hstaging, hrun, hstaged⟩ := hi.staged_of_stagingOf? ha h
  have hwaits : ∃ ticks, stage.engine.wait? stage.key = some ticks := by
    rw [hstaged.carryOut] at hk
    unfold wait?
    unfold runSlice at hk
    rw [hrun] at hk ⊢
    unfold conclude at hk
    dsimp only at hk
    rw [Option.bind_some]
    cases hending : (stage.engine.sliceOf stage.run).ending with
    | parked ticks => exact ⟨ticks, rfl⟩
    | done result =>
      rw [hending] at hk
      dsimp only at hk
      rw [(finish_runs ..).1, SlotMap.get?_erase, if_pos rfl] at hk
      cases hk
  obtain ⟨ticks, hwait⟩ := hwaits
  refine ⟨ticks, ?_⟩
  rw [parked?, hstaging]
  exact Option.map_eq_some_iff.2 ⟨ticks, hwait, rfl⟩

/-- The slices after a deed are those before it and the one that was executed in it. -/
theorem Traced.mem_stints {staging : Option (Staging σ ρ)} {report : Option RunReport}
    (h : Traced engine staging report after) (stint : Stint) : stint ∈ stints after.journal ↔
      (∃ stage, staging = some stage ∧ stage.stint = stint) ∨ stint ∈ stints engine.journal := by
  rw [h.listed, List.mem_append, Option.mem_toList, Option.map_eq_some_iff]

/-- A run that was started before a deed and is under way after it was so before. -/
theorem Outcome.get?_of_mem_starts (h : Outcome engine deed after) (hi : engine.InOrder [])
    (hu : Unworn after.journal) (hs : key ∈ starts engine.journal)
    (hk : (after.runs.get? key).isSome) : (engine.runs.get? key).isSome := by
  obtain ⟨run, hrun⟩ := Option.isSome_iff_exists.1 hk
  refine (hi.chronicle.traced key hs).resolve_right fun hended => ?_
  obtain ⟨news, hnews⟩ := h.journal
  have hpast := (hi.chronicle.orderly (hu.of_suffix h.journal)).past key hended
  exact h.inOrder.chronicle.stamped.not_past_of_get? hu hrun (hnews ▸ hpast.append news)

/-- The slices that were executed are in keeping with the schedule: this is what makes
sure that no run executes two slices in one tick. -/
structure Metered (engine : Engine σ ρ) : Prop where
  /-- Only runs that were started execute slices. -/
  begun : ∀ stint ∈ stints engine.journal, stint.key ∈ starts engine.journal
  /-- Runs in the queue have not executed any. -/
  unserved : ∀ key ∈ engine.ready, ∀ stint ∈ stints engine.journal, stint.key ≠ key
  /-- Two slices of a run are not of the same tick, unless it is the last one. -/
  apart : (stints engine.journal).Pairwise fun later earlier =>
    later.key = earlier.key → later.tick = earlier.tick → later.tick.toNat + 1 = 2 ^ 64
  /-- A run that executed a slice is in a later tick by now, or waits for one. -/
  waiting : ∀ stint ∈ stints engine.journal, (engine.runs.get? stint.key).isSome →
    stint.tick.toNat + 1 < 2 ^ 64 → stint.tick < engine.tick ∨
      stint.tick = engine.tick ∧ ∃ due, (due, stint.key) ∈ engine.sleeping.entries ∧
        engine.tick < due.tick

/-- In the last tick there is, runs that were there before are gone. -/
def Rounded (engine : Engine σ ρ) : Prop :=
  engine.tick.toNat + 1 = 2 ^ 64 →
    ∀ stint ∈ stints engine.journal, (engine.runs.get? stint.key).isSome →
      stint.tick = engine.tick

namespace Metered

/-- In an engine without runs no slices were executed. -/
theorem initial (host : σ) (random : ρ) (ledger : Ledger) (catalogue : Catalogue)
    (layout : Layout) : (Engine.initial host random ledger catalogue layout).Metered where
  begun stint hm := by cases hm
  unserved key hk := by cases hk
  apart := .nil
  waiting stint hm := by cases hm

/-- A run that executes a slice has not executed one in this tick. -/
theorem lt_of_stagingOf? (h : engine.Metered) (hi : engine.InOrder []) (ha : engine.Admits deed)
    (hu : Unworn (engine.carryOut deed).journal) (hs : engine.stagingOf? deed = some stage)
    {stint : Stint} (hm : stint ∈ stints engine.journal) (hk : stint.key = stage.key)
    (ht : stint.tick.toNat + 1 < 2 ^ 64) : stint.tick < engine.tick := by
  obtain ⟨hstaging, -, hstaged⟩ := hi.staged_of_stagingOf? ha hs
  have hscheduled := hi.scheduled (hu.of_suffix (hi.outcome ha).journal)
  have hbegun := h.begun stint hm
  cases deed with
  | launch new machine actor origin =>
    obtain ⟨rfl, -⟩ := Prod.mk.inj (Option.some.inj hstaging)
    have hworn := hu.of_suffix hstaged.executed
    have hnodup := (hstaged.inOrder.chronicle.orderly hworn).starts
    rw [hstaged.starts, ← hk] at hnodup
    exact absurd hbegun (List.nodup_cons.1 hnodup).1
  | serve first =>
    obtain ⟨rfl, -⟩ := Prod.mk.inj (Option.some.inj hstaging)
    exact absurd hk (h.unserved _ (List.mem_of_mem_head? ha) stint hm)
  | wake due first =>
    obtain ⟨run, -, hwoken⟩ := Option.bind_eq_some_iff.1 hstaging
    dsimp only at hwoken
    split at hwoken
    · obtain ⟨rfl, -⟩ := Prod.mk.inj (Option.some.inj hwoken)
      rw [← hk] at ha
      obtain hlt | ⟨-, later, hentry, hlt⟩ := h.waiting stint hm ha.2 ht
      · exact hlt
      · obtain ⟨⟨rest, hentries⟩, hle⟩ := entries_of_firstDue? ha.1
        have hfirst : (due, stint.key) ∈ engine.sleeping.entries := hentries ▸ List.mem_cons_self
        cases List.inj_on_of_nodup_map hscheduled.alone hfirst hentry rfl
        exact absurd hle (UInt64.not_le.2 hlt)
    · cases hwoken
  | discard | expire | cancel | advance | forget | adjust => cases hstaging

/-- Slices of a run and of one that executes next are of runs that were started. -/
theorem begun_next (h : engine.Metered) (hi : engine.InOrder []) (ha : engine.Admits deed)
    {stint : Stint} (hm : stint ∈ stints (engine.carryOut deed).journal) :
    stint.key ∈ starts (engine.carryOut deed).journal := by
  obtain ⟨stage, hs, rfl⟩ | hold := ((hi.traced ha).mem_stints stint).1 hm
  · obtain ⟨-, hk, hstaged⟩ := hi.staged_of_stagingOf? ha hs
    exact (hstaged.executed.sublist.filterMap _).mem (hstaged.inOrder.chronicle.listed _ _ hk)
  · exact ((hi.outcome ha).journal.sublist.filterMap _).mem (h.begun stint hold)

/-- A run that is in the queue after a deed has not executed a slice. -/
theorem unserved_next (h : engine.Metered) (hi : engine.InOrder []) (ha : engine.Admits deed)
    (hu : Unworn (engine.carryOut deed).journal) (hk : key ∈ (engine.carryOut deed).ready)
    {stint : Stint} (hm : stint ∈ stints (engine.carryOut deed).journal) : stint.key ≠ key := by
  have hone := hi.outcome ha
  obtain ⟨fresh, hready, hstarts⟩ := hone.queue
  have hnodup := (hone.inOrder.chronicle.orderly hu).starts
  rw [hstarts, List.nodup_append] at hnodup
  have hnew (other : RunKey) (hother : other ∈ deed.launched?.toList ++ starts engine.journal)
      (hf : key ∈ fresh) : other ≠ key :=
    fun heq => hnodup.2.2 key (List.mem_reverse.2 hf) other hother heq.symm
  rw [hready, List.mem_append] at hk
  obtain ⟨stage, hs, rfl⟩ | hold := ((hi.traced ha).mem_stints stint).1 hm
  · obtain ⟨-, hrun, hstaged⟩ := hi.staged_of_stagingOf? ha hs
    have hdistinct := (hstaged.inOrder.scheduled (hu.of_suffix hstaged.executed)).distinct
    obtain hstill | hf := hk
    · rintro rfl
      rw [← hstaged.ready] at hstill
      exact (List.nodup_cons.1 hdistinct).1 hstill
    · exact hnew _ (hstaged.starts ▸ hstaged.inOrder.chronicle.listed _ _ hrun) hf
  · obtain hstill | hf := hk
    · refine h.unserved key ?_ stint hold
      cases deed with
      | serve => exact List.mem_of_mem_tail hstill
      | forget => cases hstill
      | launch | wake | discard | expire | cancel | advance | adjust => exact hstill
    · exact hnew _ (List.mem_append_right _ (h.begun stint hold)) hf

/-- Two slices of a run are not of the same tick after a deed either. -/
theorem apart_next (h : engine.Metered) (hi : engine.InOrder []) (ha : engine.Admits deed)
    (hu : Unworn (engine.carryOut deed).journal) :
    (stints (engine.carryOut deed).journal).Pairwise fun later earlier =>
      later.key = earlier.key → later.tick = earlier.tick →
        later.tick.toNat + 1 = 2 ^ 64 := by
  rw [(hi.traced ha).listed]
  cases hs : engine.stagingOf? deed with
  | none => exact h.apart
  | some stage =>
    refine List.pairwise_cons.2 ⟨fun earlier hm hkey htick => ?_, h.apart⟩
    have hnow : stage.stint.tick = engine.tick := (hi.staged_of_stagingOf? ha hs).2.2.tick
    have hlast := stage.stint.tick.toNat_lt
    by_contra hne
    have hlt := h.lt_of_stagingOf? hi ha hu hs hm hkey.symm (by rw [← htick]; omega)
    rw [← htick, hnow] at hlt
    exact UInt64.lt_irrefl _ hlt

/-- Whatever happens within a tick, a run that executed a slice waits for a later one. -/
theorem waiting_next (h : engine.Metered) (hi : engine.InOrder []) (hp : engine.actions.Paced)
    (ha : engine.Admits deed) (hc : deed.isAdvance = false)
    (hu : Unworn (engine.carryOut deed).journal) {stint : Stint}
    (hm : stint ∈ stints (engine.carryOut deed).journal)
    (hk : ((engine.carryOut deed).runs.get? stint.key).isSome)
    (ht : stint.tick.toNat + 1 < 2 ^ 64) :
    stint.tick < (engine.carryOut deed).tick ∨ stint.tick = (engine.carryOut deed).tick ∧
      ∃ due, (due, stint.key) ∈ (engine.carryOut deed).sleeping.entries ∧
        (engine.carryOut deed).tick < due.tick := by
  have hone := hi.outcome ha
  have htick : (engine.carryOut deed).tick = engine.tick := by
    rw [hone.tick, hc]
    rfl
  rw [htick]
  obtain ⟨stage, hs, rfl⟩ | hold := ((hi.traced ha).mem_stints stint).1 hm
  · obtain ⟨ticks, hparked⟩ := parked?_of_stagingOf? hi ha hs hk
    have hnow : stage.stint.tick = engine.tick := (hi.staged_of_stagingOf? ha hs).2.2.tick
    have hpos := parked?_pos hp hparked
    have hdue := toNat_dueTick engine.tick ticks
    have hsize : UInt64.size = 2 ^ 64 := rfl
    refine .inr ⟨hnow, _, (hone.mem_sleeping hi ha _).2 (.inr ⟨ticks, hparked, rfl⟩), ?_⟩
    rw [hnow] at ht
    rw [UInt64.lt_iff_toNat_lt]
    dsimp only
    omega
  · have hthere := hone.get?_of_mem_starts hi hu (h.begun stint hold) hk
    obtain hlt | ⟨hnow, due, hentry, hlt⟩ := h.waiting stint hold hthere ht
    · exact .inl hlt
    · refine .inr ⟨hnow, due, (hone.mem_sleeping hi ha _).2 (.inl ?_), hlt⟩
      cases deed with
      | wake moment first | discard moment first =>
        obtain ⟨⟨rest, hentries⟩, hle⟩ := entries_of_firstDue? ha.1
        change (due, stint.key) ∈ (engine.sleeping.erase moment).entries
        rw [entries_erase_head hentries]
        rw [hentries] at hentry
        rcases List.mem_cons.1 hentry with heq | hrest
        · cases heq
          exact absurd hle (UInt64.not_le.2 hlt)
        · exact hrest
      | forget =>
        rw [ha stint.key] at hthere
        cases hthere
      | launch | serve | expire | cancel | advance | adjust => exact hentry

/-- Whatever happens within a tick keeps the slices in keeping with the schedule. -/
theorem next (h : engine.Metered) (hi : engine.InOrder []) (hp : engine.actions.Paced)
    (ha : engine.Admits deed) (hc : deed.isAdvance = false)
    (hu : Unworn (engine.carryOut deed).journal) : (engine.carryOut deed).Metered where
  begun _ hm := h.begun_next hi ha hm
  unserved _ hk _ hm := h.unserved_next hi ha hu hk hm
  apart := h.apart_next hi ha hu
  waiting _ hm hk ht := h.waiting_next hi hp ha hc hu hm hk ht

/-- So does the next tick, also if the ticks begin anew with it. -/
theorem advance (h : engine.Metered) (hr : engine.Rounded) :
    (engine.carryOut .advance).Metered where
  begun := h.begun
  unserved := h.unserved
  apart := h.apart
  waiting stint hm hk ht := by
    have hbound := engine.tick.toNat_lt
    have hnext : (engine.carryOut .advance).tick.toNat = (engine.tick.toNat + 1) % 2 ^ 64 :=
      UInt64.toNat_add ..
    by_cases hlast : engine.tick.toNat + 1 = 2 ^ 64
    · rw [hr hlast stint hm hk] at ht
      omega
    · left
      rw [UInt64.lt_iff_toNat_lt, hnext]
      obtain hlt | ⟨hnow, -⟩ := h.waiting stint hm hk ht
      · rw [UInt64.lt_iff_toNat_lt] at hlt
        omega
      · rw [hnow]
        omega

omit [Host σ] [RandomSource ρ] in
/-- In the last tick runs are taken up until none of those that were there is left. -/
theorem rounded (h : engine.Metered) (hi : engine.InOrder []) (hu : Unworn engine.journal)
    (hn : engine.firstDue? = none) : engine.Rounded := by
  intro hlast stint hm hk
  have hscheduled := hi.scheduled hu
  obtain ⟨run, hrun⟩ := Option.isSome_iff_exists.1 hk
  exfalso
  cases hparked : run.parked with
  | false =>
    have hready : stint.key ∈ engine.ready := (hscheduled.awake _).2 ⟨run, hrun, hparked⟩
    exact h.unserved _ hready stint hm rfl
  | true =>
    obtain ⟨entry, hentry, hkey⟩ := List.mem_map.1 ((hscheduled.asleep _ run hrun).2 hparked)
    have hlt := lt_of_firstDue?_eq_none hn hentry
    have hbound := entry.1.tick.toNat_lt
    rw [UInt64.lt_iff_toNat_lt] at hlt
    omega

end Metered

/-- Runs that are new in the last tick execute slices of this tick only. -/
theorem Rounded.next (hr : engine.Rounded) (h : engine.Metered) (hi : engine.InOrder [])
    (ha : engine.Admits deed) (hc : deed.isAdvance = false)
    (hu : Unworn (engine.carryOut deed).journal) : (engine.carryOut deed).Rounded := by
  have hone := hi.outcome ha
  have htick : (engine.carryOut deed).tick = engine.tick := by
    rw [hone.tick, hc]
    rfl
  intro hlast stint hm hk
  rw [htick] at hlast ⊢
  obtain ⟨stage, hs, rfl⟩ | hold := ((hi.traced ha).mem_stints stint).1 hm
  · exact (hi.staged_of_stagingOf? ha hs).2.2.tick
  · exact hr hlast stint hold (hone.get?_of_mem_starts hi hu (h.begun stint hold) hk)

/-- Whatever happens within a tick keeps the slices in keeping with the schedule, deed
by deed. -/
theorem Metered.course (h : engine.Metered) (hc : Course engine deeds after)
    (hi : engine.InOrder []) (hp : engine.actions.Paced) (hu : Unworn after.journal)
    (hn : ∀ deed ∈ deeds, deed.isAdvance = false) :
    after.Metered ∧ (engine.Rounded → after.Rounded) := by
  induction hc with
  | done => exact ⟨h, id⟩
  | @next engine after deed rest admitted others ih =>
    have hone := hi.outcome admitted
    have hcalm := hn deed List.mem_cons_self
    have hworn := hu.of_suffix (others.inOrder hone.inOrder).2.1
    obtain ⟨hlast, hrounded⟩ := ih (h.next hi hp admitted hcalm hworn) hone.inOrder
      (hone.actions ▸ hp) hu fun other hm => hn other (.tail _ hm)
    exact ⟨hlast, fun hr => hrounded (hr.next h hi admitted hcalm hworn)⟩

/-- The journal has the slices that were executed in some deeds. -/
theorem stints_of_course (hc : Course engine deeds after) (hi : engine.InOrder []) :
    stints after.journal =
      ((engine.stagings deeds).map Staging.stint).reverse ++ stints engine.journal := by
  induction hc with
  | done => rfl
  | @next engine after deed rest admitted _ ih =>
    have hstagings : engine.stagings (deed :: rest) =
        (engine.stagingOf? deed).toList ++ (engine.carryOut deed).stagings rest := rfl
    rw [ih (hi.outcome admitted).inOrder, (hi.traced admitted).listed, hstagings,
      List.map_append, List.reverse_append, List.append_assoc]
    cases engine.stagingOf? deed <;> rfl

/-- The runs that fail for the number of their steps are those that use up what they may
make. -/
theorem failed_of_course (hc : Course engine deeds after) (hi : engine.InOrder []) (key : RunKey)
    (limit : Nat) :
    (∃ told ∈ engine.reported deeds, told.key = key ∧
      told.result = .error (.limit (.steps limit))) ↔
    ∃ stage ∈ engine.stagings deeds, stage.key = key ∧ stage.limit = limit ∧ stage.Exhausts := by
  induction hc with
  | done => exact ⟨fun ⟨_, hm, _⟩ => (nomatch hm), fun ⟨_, hm, _⟩ => (nomatch hm)⟩
  | @next engine after deed rest admitted _ ih =>
    have hrest := ih (hi.outcome admitted).inOrder
    have hfirst := (hi.traced admitted).failed key limit
    unfold reported stagings at hrest ⊢
    simp only [gather, List.mem_append, Option.mem_toList, or_and_right, exists_or]
    exact or_congr hfirst hrest

end Engine

/-- Between operations the slices are in keeping with the schedule. -/
theorem Timeline.metered {start engine : Engine σ ρ} {deeds : List (Deed σ ρ)}
    (h : Timeline start deeds engine) (hu : Unworn engine.journal) :
    engine.Metered ∧ engine.Rounded := by
  induction h with
  | initial host random settings catalogue layout =>
    exact ⟨.initial host random _ catalogue layout, fun _ _ hm => by cases hm⟩
  | @step start engine after deeds more fuel operation reports past performed performs ih =>
    obtain ⟨hengine, hpaced, -, -⟩ := past.reaches (List.append_nil deeds).symm past.course
    obtain ⟨-, hjournal, -⟩ := performs.course.inOrder hengine
    obtain ⟨hmetered, hrounded⟩ := ih (hu.of_suffix hjournal)
    by_cases ho : operation = .tick
    · obtain ⟨late, taken, first, middle, rfl, htick⟩ := performs.tick ho
      obtain ⟨hmoved, hcourse⟩ := htick.moved hengine
      obtain ⟨hmiddle, -, hactions⟩ := hcourse.inOrder hmoved
      have hworn := hu.of_suffix (htick.ends.inOrder hmiddle).2.1
      obtain ⟨hwoken, -⟩ := (hmetered.advance hrounded).course hcourse hmoved hpaced hworn
        fun deed hm => htick.calm deed (List.mem_append_left _ hm)
      obtain ⟨hlast, hkept⟩ := hwoken.course htick.ends hmiddle (hactions ▸ hpaced) hu
        fun deed hm => htick.calm deed (List.mem_append_right _ hm)
      exact ⟨hlast, hkept (hwoken.rounded hmiddle hworn htick.exhausted)⟩
    · obtain ⟨hlast, hkept⟩ := hmetered.course performs.course hengine hpaced hu
        fun deed hm => (performs.belongs deed hm).calm ho
      exact ⟨hlast, hkept hrounded⟩

namespace History

/-- The budget of steps is exact. Every history has a timeline whose deeds give the reports
that were handed out or are pending, and the journal has the slices that were executed in
them. In every slice the machine of the run makes as many steps as the journal says, which
are no more than the run may make in one tick. A run has failed for the number of its steps
exactly if it went on after every one of as many steps in one slice, and it does so in the deed
with that slice. The reports say how many steps the runs made in all slices since they were
started. As long as no slot is worn out, these are all slices of their keys, and no run executes
two slices in one tick, the last one apart. -/
theorem step_budget_exact {engine : Engine σ ρ} {returned : List RunReport}
    (h : History engine returned) :
    ∃ start deeds, Timeline start deeds engine ∧
      (returned ++ engine.pending).Perm (start.reported deeds) ∧
      stints engine.journal = ((start.stagings deeds).map Staging.stint).reverse ∧
      (∀ stage ∈ start.stagings deeds, stage.stint.steps ≤ stage.limit ∧
        ∀ steps, stage.Makes steps ↔ stage.stint.steps = steps) ∧
      (∀ key limit,
        (∃ told ∈ returned ++ engine.pending, told.key = key ∧
          told.result = .error (.limit (.steps limit))) ↔
        ∃ stage ∈ start.stagings deeds, stage.key = key ∧ stage.limit = limit ∧
          stage.Exhausts) ∧
      (∀ earlier deed later now, deeds = earlier ++ deed :: later → Course start earlier now →
        Engine.Traced now (now.stagingOf? deed) (now.reportOf? deed) (now.carryOut deed)) ∧
      ((returned ++ engine.pending).map RunReport.total).Perm (totals engine.journal) ∧
      (Unworn engine.journal →
        (∀ (key : RunKey) (tick : UInt64), tick.toNat + 1 < 2 ^ 64 →
          (stints engine.journal).countP (fun stint => stint.key = key ∧ stint.tick = tick) ≤ 1) ∧
        ∀ told ∈ returned ++ engine.pending,
          told.steps = spent told.key (stints engine.journal)) := by
  obtain ⟨start, deeds, htimeline, hreports⟩ := h.exists_reported
  obtain ⟨hstart, -⟩ := htimeline.begins
  have hblank : start.journal = [] := htimeline.journal_start
  obtain ⟨htallied, htotals⟩ := htimeline.tallied
  refine ⟨start, deeds, htimeline, hreports, ?_, fun stage _ => ?_, fun key limit => ?_,
    fun earlier deed later now hdeeds hearlier => ?_, ?_,
    fun hu => ⟨fun key tick ht => ?_, fun told hm => ?_⟩⟩
  · rw [Engine.stints_of_course htimeline.course hstart, hblank]
    exact List.append_nil _
  · exact ⟨stage.steps_le, stage.makes_iff⟩
  · simp only [hreports.mem_iff]
    exact Engine.failed_of_course htimeline.course hstart key limit
  · subst hdeeds
    obtain ⟨middle, hmiddle, hrest⟩ := htimeline.course.split
    obtain rfl := hmiddle.unique hearlier
    cases hrest with
    | next admitted _ => exact (hearlier.inOrder hstart).1.traced admitted
  · rw [htotals]
    exact (hreports.map _).trans (List.reverse_perm _).symm
  · refine List.countP_le_one_of_pairwise ((htimeline.metered hu).1.apart.imp ?_)
    intro later earlier happart hlater hearlier
    simp only [decide_eq_true_eq] at hlater hearlier
    have hlast := happart (hlater.1.trans hearlier.1.symm) (hlater.2.trans hearlier.2.symm)
    rw [hlater.2] at hlast
    omega
  · have hengine := (htimeline.course.inOrder hstart).1
    have htotal : told.total ∈ totals engine.journal := by
      rw [htotals]
      exact List.mem_reverse.2 (List.mem_map_of_mem (hreports.mem_iff.1 hm))
    exact total_eq_spent (hengine.chronicle.orderly hu) htallied.begun htotal

/-- An engine whose runs may make one step in a tick. -/
def frugalEngine : Engine MinimalHost ReplaySource :=
  .initial ⟨⟨0⟩⟩ ⟨[], 0⟩ (.initial { (default : Settings) with maxStepsPerTick := 1 })
    ⟨0, .empty, .empty⟩ ⟨default, 1, default, default, 10⟩

/-- A run parks with its only step and is taken up in the next tick, in which it fails
because it goes on after its only step. The report has both steps. -/
theorem step_budget_exact_frugal : ∃ (engine start : Engine MinimalHost ReplaySource)
    (returned : List RunReport) (deeds : List (Deed MinimalHost ReplaySource)),
    History engine returned ∧ Unworn engine.journal ∧ Timeline start deeds engine ∧
      stints engine.journal = [⟨⟨0, 0⟩, 1, 1⟩, ⟨⟨0, 0⟩, 0, 1⟩] ∧
      returned.map (·.steps) = [2] ∧
      (∃ stage ∈ start.stagings deeds,
        stage.key = ⟨0, 0⟩ ∧ stage.limit = 1 ∧ stage.Exhausts) ∧
      ∀ told ∈ returned ++ engine.pending,
        told.steps = spent told.key (stints engine.journal) := by
  have hfacts : ((frugalEngine.performAll 1 []
      [.execute dozeProgram ⟨"alice"⟩ default, .tick]).map fun last =>
        (last.1.map fun told => (told.key, told.steps, failure? told.result),
          stints last.2.journal, last.2.journal.length)) =
      some ([(⟨0, 0⟩, 2, some (.limit (.steps 1)))],
        [⟨⟨0, 0⟩, 1, 1⟩, ⟨⟨0, 0⟩, 0, 1⟩], 6) := by decide +kernel
  obtain ⟨⟨returned, engine⟩, hlast, hend⟩ := Option.map_eq_some_iff.1 hfacts
  simp only [Prod.mk.injEq] at hend
  obtain ⟨hreturned, hstints, hlength⟩ := hend
  have h : History engine returned := (History.initial ..).performAll hlast
  have hu : Unworn engine.journal := .of_length (by rw [hlength]; decide)
  obtain ⟨told, rfl, htold⟩ := List.map_eq_singleton_iff.1 hreturned
  simp only [Prod.mk.injEq] at htold
  obtain ⟨hkey, hsteps, hfailure⟩ := htold
  have hcounted : [told].map (·.steps) = [2] := congrArg (fun steps => [steps]) hsteps
  obtain ⟨start, deeds, htimeline, -, -, -, hfailed, -, -, hexact⟩ := step_budget_exact h
  refine ⟨engine, start, [told], deeds, h, hu, htimeline, hstints, hcounted, ?_, (hexact hu).2⟩
  exact (hfailed ⟨0, 0⟩ 1).1 ⟨told, List.mem_cons_self, hkey, eq_of_failure? hfailure⟩

end History

end GridScript
