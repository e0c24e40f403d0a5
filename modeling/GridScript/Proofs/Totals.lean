import GridScript.Proofs.Stints

/-!
# Totals

A key may be given out more than once, so the slices of a run are those that the journal has for its
key since the run was started. A run under way has made the steps of these slices, whatever happened
to its slot before. The report of a run therefore has the total of the steps in all its slices, and
the totals of the runs that ended can be read off the journal. If no key was given out twice, they
are the steps of all slices of the keys.
-/

namespace GridScript

namespace Journal

variable {key : RunKey} {event : RunEvent} {journal : List RunEvent}

/-- How many steps the run of a key has made in the slices since it was started. -/
def tally (key : RunKey) (journal : List RunEvent) : Nat :=
  spent key (stints (journal.takeWhile (· ≠ .started key)))

/-- The runs that ended, each with the steps in all its slices, latest first. -/
def totals : List RunEvent → List (RunKey × Nat)
  | [] => []
  | .ended key :: journal => (key, tally key journal) :: totals journal
  | _ :: journal => totals journal

/-- Nothing happens to a run before it was started. -/
def Begun : List RunEvent → Prop
  | [] => True
  | event :: journal => event.key ∈ starts (event :: journal) ∧ Begun journal

/-- A run that was just started has made no steps. -/
theorem tally_started (key : RunKey) (journal : List RunEvent) :
    tally key (.started key :: journal) = 0 := by
  have hnone : (RunEvent.started key :: journal).takeWhile (· ≠ .started key) = [] :=
    List.takeWhile_cons_of_neg (by simp)
  rw [tally, hnone]
  rfl

/-- The slices that an event adds are those that it is about. -/
theorem stints_cons (event : RunEvent) (journal : List RunEvent) :
    stints (event :: journal) = event.stint?.toList ++ stints journal := by
  cases hstint : event.stint? with
  | none => rw [stints, List.filterMap_cons_none hstint]; rfl
  | some stint => rw [stints, List.filterMap_cons_some hstint]; rfl

/-- What happens to a run counts with the steps that it makes. -/
theorem tally_cons (h : event ≠ .started key) (journal : List RunEvent) :
    tally key (event :: journal) = spent key event.stint?.toList + tally key journal := by
  have hlonger : (event :: journal).takeWhile (· ≠ .started key) =
      event :: journal.takeWhile (· ≠ .started key) :=
    List.takeWhile_cons_of_pos (by simpa using h)
  rw [tally, hlonger, tally, ← spent_append, stints_cons]

/-- The slice that an event is about is one of its run. -/
theorem spent_of_key_ne (h : event.key ≠ key) : spent key event.stint?.toList = 0 := by
  refine spent_eq_zero fun stint hm hkey => ?_
  cases event with
  | executed =>
    obtain rfl := List.mem_singleton.1 hm
    exact h hkey
  | _ => cases hm

/-- What happens to other runs does not count. -/
theorem tally_cons_of_ne (h : event.key ≠ key) (journal : List RunEvent) :
    tally key (event :: journal) = tally key journal := by
  have hstart : event ≠ .started key := by
    rintro rfl
    exact h rfl
  rw [tally_cons hstart, spent_of_key_ne h, Nat.zero_add]

/-- What is neither a start nor a slice does not count either. -/
theorem tally_cons_of_stint?_eq_none (hs : event.started? = none) (he : event.stint? = none)
    (key : RunKey) (journal : List RunEvent) : tally key (event :: journal) = tally key journal := by
  have hstart : event ≠ .started key := by
    rintro rfl
    cases hs
  rw [tally_cons hstart, he]
  exact Nat.zero_add _

namespace Begun

/-- Whatever happened is about a run that was started. -/
theorem mem_starts (h : Begun journal) (hm : event ∈ journal) : event.key ∈ starts journal := by
  induction journal with
  | nil => cases hm
  | cons first rest ih =>
    rcases List.mem_cons.1 hm with rfl | hrest
    · exact h.1
    · exact ((List.sublist_cons_self first rest).filterMap _).mem (ih h.2 hrest)

/-- A part of the journal up to some event begins as the journal does. -/
theorem of_append {later : List RunEvent} (h : Begun (later ++ journal)) : Begun journal := by
  induction later with
  | nil => exact h
  | cons first rest ih => exact ih h.2

/-- A run whose key was not given out has made no steps. -/
theorem spent_of_not_mem (h : Begun journal) (hk : key ∉ starts journal) :
    spent key (stints journal) = 0 := by
  refine spent_eq_zero fun stint hm hkey => hk ?_
  obtain ⟨event, hevent, hstint⟩ := List.mem_filterMap.1 hm
  have hstarted := h.mem_starts hevent
  cases event with
  | executed =>
    cases hstint
    exact hkey ▸ hstarted
  | _ => cases hstint

/-- If no key was given out twice, all slices of a key are those of its run. -/
theorem tally_eq_spent (h : Begun journal) (hn : (starts journal).Nodup)
    (hk : key ∈ starts journal) : tally key journal = spent key (stints journal) := by
  induction journal with
  | nil => cases hk
  | cons event rest ih =>
    rw [stints_cons, spent_append]
    by_cases hstart : event = .started key
    · subst hstart
      have hnew : key ∉ starts rest := (List.nodup_cons.1 hn).1
      rw [tally_started, h.2.spent_of_not_mem hnew]
      rfl
    · have hold : key ∈ starts rest ∧ (starts rest).Nodup := by
        cases event with
        | started other =>
          obtain ⟨-, hrest⟩ := List.nodup_cons.1 hn
          rcases List.mem_cons.1 hk with rfl | hm
          · exact absurd rfl hstart
          · exact ⟨hm, hrest⟩
        | executed | suspended | resumed | ended => exact ⟨hk, hn⟩
      rw [tally_cons hstart, ih h.2 hold.2 hold.1]

end Begun

/-- A total is that of a run at its end. -/
theorem exists_of_mem_totals {steps : Nat} (h : (key, steps) ∈ totals journal) :
    ∃ later earlier, journal = later ++ .ended key :: earlier ∧ steps = tally key earlier := by
  induction journal with
  | nil => cases h
  | cons event rest ih =>
    have hcases : event = .ended key ∧ steps = tally key rest ∨ (key, steps) ∈ totals rest := by
      cases event with
      | ended other =>
        rcases List.mem_cons.1 h with heq | hm
        · cases heq
          exact .inl ⟨rfl, rfl⟩
        · exact .inr hm
      | started | executed | suspended | resumed => exact .inr h
    obtain ⟨rfl, hsteps⟩ | hm := hcases
    · exact ⟨[], rest, rfl, hsteps⟩
    · obtain ⟨later, earlier, rfl, hsteps⟩ := ih hm
      exact ⟨event :: later, earlier, rfl, hsteps⟩

/-- If runs are started and end once, the total of a run has the steps of all slices of its
key. -/
theorem total_eq_spent (h : Orderly journal) (hb : Begun journal) {steps : Nat}
    (hm : (key, steps) ∈ totals journal) : steps = spent key (stints journal) := by
  obtain ⟨later, earlier, rfl, rfl⟩ := exists_of_mem_totals hm
  have hbegun := hb.of_append
  have hold : key ∈ starts earlier := hbegun.1
  have hnodup : (starts earlier).Nodup := by
    have hall := h.starts
    rw [starts, List.filterMap_append, List.nodup_append] at hall
    exact hall.2.1
  have hnone : spent key (stints later) = 0 := by
    refine spent_eq_zero fun stint hstint hkey => ?_
    obtain ⟨event, hevent, hslice⟩ := List.mem_filterMap.1 hstint
    have hfinal := (List.pairwise_append.1 h.final).2.2 event hevent _ List.mem_cons_self key rfl
    cases event with
    | executed =>
      cases hslice
      exact hfinal hkey
    | _ => cases hslice
  have hsplit : stints (later ++ .ended key :: earlier) = stints later ++ stints earlier :=
    List.filterMap_append
  rw [hsplit, spent_append, hnone, Nat.zero_add, hbegun.2.tally_eq_spent hnodup hold]

end Journal

open Journal

/-- The run of a report with the number of its steps. -/
def RunReport.total (told : RunReport) : RunKey × Nat :=
  (told.key, told.steps)

namespace Engine

variable {σ ρ : Type} {engine middle after : Engine σ ρ} {key : RunKey} {run : Run}
  {event : RunEvent} {report : Option RunReport}

/-- The journal tells the steps of the runs under way. -/
structure Tallied (engine : Engine σ ρ) : Prop where
  /-- Every run under way has made the steps of its slices. -/
  steps : ∀ key run, engine.runs.get? key = some run → run.steps = tally key engine.journal
  /-- It was started. -/
  listed : ∀ key run, engine.runs.get? key = some run → key ∈ starts engine.journal
  /-- Nothing happened to a run before its start. -/
  begun : Begun engine.journal

/-- The runs under way still have made the steps of their slices, and the only run that ended is
the one that is reported, which has made those of its own. -/
structure Reckons (before : Engine σ ρ) (report : Option RunReport) (after : Engine σ ρ) : Prop where
  /-- The journal tells the steps of the runs under way. -/
  tallied : after.Tallied
  /-- The journal has the end of the run, and the slices tell the number of its steps. -/
  totals : totals after.journal = (report.map RunReport.total).toList ++ totals before.journal

/-- What happens after some things that end no run. -/
theorem Reckons.after_none (h₁ : Reckons engine none middle) (h₂ : Reckons middle report after) :
    Reckons engine report after :=
  ⟨h₂.tallied, h₂.totals.trans (congrArg (_ ++ ·) h₁.totals)⟩

namespace Tallied

/-- What does not touch runs and journal ends no run. -/
theorem idle (h : engine.Tallied) (hr : middle.runs = engine.runs)
    (hj : middle.journal = engine.journal) : Reckons engine none middle := by
  refine ⟨⟨?_, ?_, hj ▸ h.begun⟩, congrArg Journal.totals hj⟩
  · rw [hr, hj]
    exact h.steps
  · rw [hr, hj]
    exact h.listed

/-- A run is put back with as many steps. -/
theorem put (h : engine.Tallied) (hk : engine.runs.get? key = some run)
    (hr : ∃ next, middle.runs = engine.runs.set key next ∧ next.steps = run.steps)
    (hj : middle.journal = engine.journal) : Reckons engine none middle := by
  obtain ⟨next, hruns, hsteps⟩ := hr
  have hfound (other : RunKey) (found : Run) (ho : middle.runs.get? other = some found) :
      ∃ old, engine.runs.get? other = some old ∧ found.steps = old.steps := by
    rw [hruns, SlotMap.get?_set hk] at ho
    split at ho
    · rename_i heq
      cases ho
      exact ⟨run, heq ▸ hk, hsteps⟩
    · exact ⟨found, ho, rfl⟩
  refine ⟨⟨fun other found ho => ?_, fun other found ho => ?_, hj ▸ h.begun⟩,
    congrArg Journal.totals hj⟩
  · obtain ⟨old, hold, heq⟩ := hfound other found ho
    rw [hj, heq]
    exact h.steps other old hold
  · obtain ⟨old, hold, -⟩ := hfound other found ho
    rw [hj]
    exact h.listed other old hold

/-- Something is noted about a run under way that is neither its start nor a slice nor its end. -/
theorem note (h : engine.Tallied) (hk : engine.runs.get? event.key = some run)
    (hs : event.started? = none) (hn : event.stint? = none) (he : event.ended? = none) :
    Reckons engine none (engine.record event) := by
  have hstarts : starts (event :: engine.journal) = starts engine.journal := starts_cons hs _
  refine ⟨⟨fun other found ho => ?_, fun other found ho => ?_, ?_, h.begun⟩, ?_⟩
  · exact (h.steps other found ho).trans (tally_cons_of_stint?_eq_none hs hn other _).symm
  · exact hstarts ▸ h.listed other found ho
  · exact hstarts ▸ h.listed _ run hk
  · cases event with
    | ended => cases he
    | started | executed | suspended | resumed => rfl

/-- A run is started. -/
theorem spawn (h : engine.Tallied) (ht : engine.runs.Tidy) (machine : Machine) (actor : Actor)
    (origin : Place) : Reckons engine none (engine.spawn machine actor origin).2 := by
  have hfound := SlotMap.get?_insert ht ⟨machine, actor, origin, 0, false⟩
  refine ⟨⟨fun other found ho => ?_, fun other found ho => ?_, List.mem_cons_self, h.begun⟩, rfl⟩
  · have hcases := (hfound other).symm.trans ho
    split at hcases
    · rename_i heq
      cases hcases
      rw [heq]
      exact (tally_started ..).symm
    · rename_i hne
      exact (h.steps other found hcases).trans (tally_cons_of_ne (Ne.symm hne) _).symm
  · have hcases := (hfound other).symm.trans ho
    split at hcases
    · rename_i heq
      rw [heq]
      exact List.mem_cons_self
    · exact .tail _ (h.listed other found hcases)

/-- Machines that were split off are started. -/
theorem adopt (h : engine.Tallied) (ht : engine.runs.Tidy) (forks : List Machine) :
    Reckons engine none (engine.adopt forks) := by
  induction forks generalizing engine with
  | nil => exact h.idle rfl rfl
  | cons machine rest ih =>
    unfold Engine.adopt
    split
    · exact ih h ht
    · rename_i context _
      have hspawned := h.spawn ht machine context.actor context.origin
      have hqueued : Reckons (engine.spawn machine context.actor context.origin).2 none
          { (engine.spawn machine context.actor context.origin).2 with
            ready := engine.ready ++ [(engine.spawn machine context.actor context.origin).1] } :=
        hspawned.tallied.idle rfl rfl
      exact hspawned.after_none (hqueued.after_none (ih hqueued.tallied (SlotMap.tidy_insert ht _)))

/-- A run executes a slice. -/
theorem afterSlice (h : engine.Tallied) (hk : engine.runs.get? key = some run)
    (slice : Slice σ ρ) : Reckons engine none (engine.afterSlice key run slice) := by
  have hfound := SlotMap.get?_set hk (run.afterSlice slice)
  refine ⟨⟨fun other found ho => ?_, fun other found ho => ?_, h.listed key run hk, h.begun⟩, rfl⟩
  · have hcases := (hfound other).symm.trans ho
    split at hcases
    · rename_i heq
      cases hcases
      have hslice : spent key [⟨key, engine.tick, slice.steps⟩] = slice.steps := by simp [spent]
      have hstart : RunEvent.executed key engine.tick slice.steps ≠ .started key := by simp
      have htally : tally key (.executed key engine.tick slice.steps :: engine.journal) =
          spent key [⟨key, engine.tick, slice.steps⟩] + tally key engine.journal :=
        tally_cons hstart _
      rw [hslice, ← h.steps key run hk, Nat.add_comm] at htally
      rw [heq]
      exact htally.symm
    · rename_i hne
      exact (h.steps other found hcases).trans (tally_cons_of_ne (Ne.symm hne) _).symm
  · have hcases := (hfound other).symm.trans ho
    split at hcases
    · rename_i heq
      rw [heq]
      exact h.listed key run hk
    · exact h.listed other found hcases

/-- A run ends, if it is there. -/
theorem finish (h : engine.Tallied) (key : RunKey) (result : Except RunError (Option Value)) :
    Reckons engine (engine.finish key result).1 (engine.finish key result).2 := by
  cases hk : engine.runs.get? key with
  | none =>
    unfold Engine.finish
    rw [hk]
    exact h.idle rfl rfl
  | some run =>
    obtain ⟨hreport, hruns, hjournal, -⟩ := finish_of_get? hk result
    have hstill (other : RunKey) (found : Run)
        (ho : (engine.finish key result).2.runs.get? other = some found) :
        other ≠ key ∧ engine.runs.get? other = some found := by
      rw [hruns, SlotMap.get?_erase] at ho
      split at ho
      · cases ho
      · rename_i hne
        exact ⟨hne, ho⟩
    refine ⟨⟨fun other found ho => ?_, fun other found ho => ?_, ?_⟩, ?_⟩
    · obtain ⟨hne, hold⟩ := hstill other found ho
      rw [hjournal]
      exact (h.steps other found hold).trans (tally_cons_of_ne (Ne.symm hne) _).symm
    · rw [hjournal]
      exact h.listed other found (hstill other found ho).2
    · rw [hjournal]
      exact ⟨h.listed key run hk, h.begun⟩
    · have htotal : (Engine.report key run result).total = (key, tally key engine.journal) :=
        congrArg (key, ·) (h.steps key run hk)
      rw [hjournal, hreport, Option.map_some, htotal]
      rfl

/-- A run ends after it was put back. -/
theorem dismiss (h : engine.Tallied) (hk : engine.runs.get? key = some run)
    (hr : ∃ next, middle.runs = engine.runs.set key next ∧ next.steps = run.steps)
    (hj : middle.journal = engine.journal) (result : Except RunError (Option Value)) :
    Reckons engine (middle.finish key result).1 (middle.finish key result).2 := by
  have hput := h.put hk hr hj
  exact hput.after_none (hput.tallied.finish key result)

/-- A run executes a slice, and is parked or ends. -/
theorem conclude (h : engine.Tallied) (ht : engine.runs.Tidy)
    (hk : engine.runs.get? key = some run) (slice : Slice σ ρ) :
    Reckons engine (engine.conclude key run slice).1 (engine.conclude key run slice).2 := by
  have hserved := h.afterSlice hk slice
  have hfound : (engine.afterSlice key run slice).runs.get? key = some (run.afterSlice slice) :=
    (SlotMap.get?_set hk _ key).trans (if_pos rfl)
  have htidy : (engine.afterSlice key run slice).runs.Tidy := SlotMap.tidy_set ht _ _
  unfold Engine.conclude
  dsimp only
  refine hserved.after_none ?_
  cases slice.ending with
  | parked ticks =>
    have hput : Reckons (engine.afterSlice key run slice) none
        { engine.afterSlice key run slice with
          runs := (engine.afterSlice key run slice).runs.set key
            { run.afterSlice slice with parked := true }
          sleeping := (engine.afterSlice key run slice).sleeping.insert
            ⟨dueTick engine.tick ticks, engine.sequence⟩ key
          sequence := engine.sequence + 1 } :=
      hserved.tallied.put hfound ⟨_, rfl, rfl⟩ rfl
    have hparked : Reckons (engine.afterSlice key run slice) none
        ((engine.afterSlice key run slice).park key (run.afterSlice slice) ticks) :=
      hput.after_none (hput.tallied.note ((SlotMap.get?_set hfound _ key).trans (if_pos rfl))
        rfl rfl rfl)
    exact hparked.after_none (hparked.tallied.adopt (SlotMap.tidy_set htidy _ _) slice.forks)
  | done result =>
    have hadopted := hserved.tallied.adopt htidy slice.forks
    exact hadopted.after_none (hadopted.tallied.finish key result)

variable [Host σ] [RandomSource ρ]

/-- A run is served. -/
theorem runSlice (h : engine.Tallied) (ht : engine.runs.Tidy) (key : RunKey) :
    Reckons engine (engine.runSlice key).1 (engine.runSlice key).2 := by
  unfold Engine.runSlice
  cases hk : engine.runs.get? key with
  | none => exact h.idle rfl rfl
  | some run => exact h.conclude ht hk (engine.sliceOf run)

omit [RandomSource ρ] in
/-- A run is cancelled. -/
theorem cancel (h : engine.Tallied) (key : RunKey) (reason : CancelReason) :
    Reckons engine (engine.cancel key reason).1 (engine.cancel key reason).2 := by
  unfold Engine.cancel
  cases hk : engine.runs.get? key with
  | none => exact h.idle rfl rfl
  | some run =>
    dsimp only
    split
    · refine h.dismiss hk ?_ ?_ (.error (.cancelled reason))
      · exact ⟨_, SlotMap.set_set hk _ _, rfl⟩
      · rfl
    · refine h.dismiss hk ?_ ?_ (.error (.cancelled reason))
      · exact ⟨_, rfl, rfl⟩
      · rfl

omit [RandomSource ρ] in
/-- A run fails if it is late. -/
theorem expire (h : engine.Tallied) (key : RunKey) :
    Reckons engine (engine.expire key).1 (engine.expire key).2 := by
  unfold Engine.expire
  cases hk : engine.runs.get? key with
  | none => exact h.idle rfl rfl
  | some run =>
    dsimp only
    split
    · exact h.idle rfl rfl
    · rename_i error machine around _
      refine h.dismiss hk ?_ ?_ (.error (.limit error))
      · exact ⟨_, rfl, rfl⟩
      · rfl

/-- A run is taken up. -/
theorem takeUp (h : engine.Tallied) (ht : engine.runs.Tidy) (key : RunKey) :
    Reckons engine (engine.takeUp key).1 (engine.takeUp key).2 := by
  unfold Engine.takeUp
  cases hk : engine.runs.get? key with
  | none => exact h.idle rfl rfl
  | some run =>
    have hwoken : Reckons engine none (engine.unpark key run) := h.put hk ⟨_, rfl, rfl⟩ rfl
    have hfound : (engine.unpark key run).runs.get? key = some { run with parked := false } :=
      (SlotMap.get?_set hk _ key).trans (if_pos rfl)
    have hnoted : Reckons (engine.unpark key run) none
        ((engine.unpark key run).record (.resumed key (engine.unpark key run).tick)) :=
      hwoken.tallied.note hfound rfl rfl rfl
    dsimp only
    split
    · refine hwoken.after_none (hnoted.after_none ?_)
      exact hnoted.tallied.runSlice (SlotMap.tidy_set ht _ _) key
    · exact hwoken.after_none (hwoken.tallied.cancel key _)

/-- A deed is done. -/
theorem carryOut (h : engine.Tallied) (ht : engine.runs.Tidy) (deed : Deed σ ρ) :
    Reckons engine (engine.reportOf? deed) (engine.carryOut deed) := by
  cases deed with
  | launch key machine actor origin =>
    have hspawned := h.spawn ht machine actor origin
    exact hspawned.after_none (hspawned.tallied.runSlice (SlotMap.tidy_insert ht _) key)
  | serve key =>
    have hserved : Reckons engine none { engine with ready := engine.ready.tail } :=
      h.idle rfl rfl
    exact hserved.after_none (hserved.tallied.runSlice ht key)
  | wake due key =>
    have hremoved : Reckons engine none { engine with sleeping := engine.sleeping.erase due } :=
      h.idle rfl rfl
    exact hremoved.after_none (hremoved.tallied.takeUp ht key)
  | expire key => exact h.expire key
  | cancel key reason => exact h.cancel key reason
  | discard | advance | forget | adjust => exact h.idle rfl rfl

/-- The reports of deeds have the totals of the runs that ended in them. -/
theorem course {deeds : List (Deed σ ρ)} (h : engine.Tallied) (hc : Course engine deeds after)
    (hi : engine.InOrder []) : after.Tallied ∧ totals after.journal =
      ((engine.reported deeds).map RunReport.total).reverse ++ totals engine.journal := by
  induction hc with
  | done => exact ⟨h, rfl⟩
  | @next engine after deed rest admitted _ ih =>
    have hone := h.carryOut hi.tidy deed
    have hreported : engine.reported (deed :: rest) =
        (engine.reportOf? deed).toList ++ (engine.carryOut deed).reported rest := rfl
    obtain ⟨hlast, htotals⟩ := ih hone.tallied (hi.outcome admitted).inOrder
    refine ⟨hlast, ?_⟩
    rw [htotals, hone.totals, hreported, List.map_append, List.reverse_append, List.append_assoc]
    cases engine.reportOf? deed <;> rfl

end Tallied

end Engine

namespace Timeline

variable {σ ρ : Type} [Host σ] [RandomSource ρ] {start engine : Engine σ ρ}
  {deeds : List (Deed σ ρ)}

/-- A timeline begins with an engine whose journal is empty. -/
theorem journal_start (h : Timeline start deeds engine) : start.journal = [] := by
  induction h with
  | initial => rfl
  | step past performed performs ih => exact ih

/-- The journal of a timeline has the totals of its reports. -/
theorem tallied (h : Timeline start deeds engine) : engine.Tallied ∧
      totals engine.journal = ((start.reported deeds).map RunReport.total).reverse := by
  obtain ⟨hstart, -⟩ := h.begins
  have hblank : start.journal = [] := h.journal_start
  have hnone (key : RunKey) (run : Run) (hk : start.runs.get? key = some run) : False := by
    have hstarted := hstart.chronicle.listed key run hk
    rw [hblank] at hstarted
    cases hstarted
  have htallied : start.Tallied :=
    ⟨fun key run hk => (hnone key run hk).elim, fun key run hk => (hnone key run hk).elim,
      hblank ▸ trivial⟩
  obtain ⟨hlast, htotals⟩ := htallied.course h.course hstart
  rw [hblank] at htotals
  exact ⟨hlast, htotals.trans (List.append_nil _)⟩

end Timeline

end GridScript
