import GridScript.Engine.Tick
import GridScript.Proofs.Accounts
import GridScript.Proofs.Schedule

/-!
# The life of runs

An engine is sound when its ledger is balanced, its journal accounts for all runs,
and every run is either awake or asleep. Each part of the engine keeps it sound
and gives a report for exactly those runs that it ends. What holds of a part holds
of parts in a row, so that ticks and triggers need no argument of their own.
-/

namespace GridScript

open Journal Ledger

/-- The report that starting a run gave. -/
def Execution.report? : Execution → Option RunReport
  | .finished report => some report
  | .suspended _ => none

/-- The reports that several starts gave. -/
theorem Execution.filterMap_cons (execution : Execution) (more : List Execution) :
    (execution :: more).filterMap report? =
      execution.report?.toList ++ more.filterMap report? := by
  cases hreport : execution.report? <;> simp [hreport]

namespace Engine

variable {σ ρ : Type}

/-- Journal, schedule and suspensions of an engine are in order while the given
runs are being executed. -/
structure Kept [Host σ] [RandomSource ρ] (engine : Engine σ ρ) (running : List RunKey) : Prop where
  /-- The journal accounts for the runs. -/
  chronicle : Chronicle engine.runs engine.journal
  /-- Every run is either awake or asleep. -/
  scheduled : Unworn engine.journal → Scheduled engine.runs engine.sleeping
    (running ++ engine.ready) engine.sequence engine.journal
  /-- Exactly the parked runs hold suspensions. -/
  rested : Unworn engine.journal → Rested engine.ledger engine.runs
  /-- Actions stay in their invocation. -/
  actions : engine.actions.Keeps

/-- The accounts of an engine are in order too. -/
structure Sound [Host σ] [RandomSource ρ] (engine : Engine σ ρ) (running : List RunKey) : Prop extends
    Kept engine running where
  /-- The ledger is balanced. -/
  balanced : ∀ actor, Balanced engine.ledger engine.runs actor 0

/-- One engine leads to another, with a report for every run that ends on the
way. -/
structure Leads (before after : Engine σ ρ) (reports : List RunReport) : Prop where
  /-- The journal is continued. -/
  journal : ∃ news, after.journal = news ++ before.journal
  /-- Every run that ends is reported. -/
  reports : (endings after.journal).Perm (reports.map (·.key) ++ endings before.journal)
  /-- Pending reports stay where they are. -/
  pending : after.pending = before.pending

namespace Leads

/-- An engine whose journal has no new ending leads to it without reports. -/
theorem of_news {before after : Engine σ ρ} (news : List RunEvent)
    (hj : after.journal = news ++ before.journal) (he : endings news = [])
    (hp : after.pending = before.pending) : Leads before after [] := by
  refine ⟨⟨news, hj⟩, ?_, hp⟩
  have happend : endings (news ++ before.journal) = endings news ++ endings before.journal :=
    List.filterMap_append
  rw [hj, happend, he]
  exact .refl _

/-- An engine leads to itself. -/
theorem refl (engine : Engine σ ρ) : Leads engine engine [] :=
  of_news [] rfl rfl rfl

/-- What leads from one engine to the next leads all the way. -/
theorem trans {first second third : Engine σ ρ} {reports more : List RunReport}
    (h₁ : Leads first second reports) (h₂ : Leads second third more) :
    Leads first third (reports ++ more) := by
  obtain ⟨news, hn⟩ := h₁.journal
  obtain ⟨later, hl⟩ := h₂.journal
  refine ⟨⟨later ++ news, by rw [hl, hn, List.append_assoc]⟩, ?_, h₂.pending.trans h₁.pending⟩
  refine h₂.reports.trans ?_
  rw [List.map_append]
  have hswap : (more.map (·.key) ++ (reports.map (·.key) ++ endings first.journal)).Perm
      (reports.map (·.key) ++ more.map (·.key) ++ endings first.journal) := by
    rw [← List.append_assoc]
    exact List.perm_append_comm.append_right _
  exact (h₁.reports.append_left _).trans hswap

end Leads

variable [Host σ] [RandomSource ρ]

/-- A change that touches neither runs nor journal nor counts keeps everything in
order. -/
theorem Kept.congr {engine after : Engine σ ρ} {running : List RunKey} (h : engine.Kept running)
    (hr : after.runs = engine.runs) (hs : after.sleeping = engine.sleeping)
    (hd : after.ready = engine.ready) (hq : after.sequence = engine.sequence)
    (hj : after.journal = engine.journal) (ha : after.actions = engine.actions)
    (hc : ∀ actor, after.ledger.suspensionCount actor = engine.ledger.suspensionCount actor) :
    after.Kept running where
  chronicle := by
    rw [hr, hj]
    exact h.chronicle
  scheduled hu := by
    rw [hr, hs, hd, hq, hj]
    exact h.scheduled (hj ▸ hu)
  rested hu := by
    rw [hr]
    exact (h.rested (hj ▸ hu)).of_counts hc
  actions := ha ▸ h.actions

/-- A run is started. -/
theorem Kept.spawn {engine : Engine σ ρ} {running : List RunKey} (h : engine.Kept running)
    {machine : Machine} {actor : Actor} (ho : machine.Owned actor)
    (hb : Balanced engine.ledger engine.runs actor machine.callDepth) (origin : Place) :
    (engine.spawn machine actor origin).2.Sound
        ((engine.spawn machine actor origin).1 :: running) ∧
      Leads engine (engine.spawn machine actor origin).2 [] := by
  have ht := hb.tidy
  refine ⟨⟨⟨?_, ?_, ?_, h.actions⟩, ?_⟩, .of_news [.started _] rfl rfl rfl⟩
  · exact h.chronicle.insert ht _
  · intro hu
    have hu' : Unworn engine.journal := hu
    exact ((h.scheduled hu').insert ht h.chronicle.stamped hu' rfl).append [.started _]
  · intro hu
    exact (h.rested hu).insert ht rfl
  · intro other
    exact hb.insert ho

omit [Host σ] [RandomSource ρ] in
/-- Starting a run leaves the others where they are. -/
theorem get?_spawn {engine : Engine σ ρ} (ht : engine.runs.Tidy) (machine : Machine)
    (actor : Actor) (origin : Place) (key : RunKey) (run : Run)
    (hk : engine.runs.get? key = some run) :
    (engine.spawn machine actor origin).2.runs.get? key = some run := by
  have hnew := SlotMap.get?_insert_key ht ⟨machine, actor, origin, 0, false⟩
  refine (SlotMap.get?_insert ht _ key).trans ?_
  rw [if_neg, hk]
  rintro rfl
  rw [hk] at hnew
  cases hnew

/-- Runs are started for the machines that were split off. -/
theorem Sound.adopt {actor : Actor} {forks : List Machine}
    (hf : ∀ child ∈ forks, child.IsChild actor)
    {engine : Engine σ ρ} {running : List RunKey} (h : engine.Sound running) :
    (engine.adopt forks).Sound running ∧ Leads engine (engine.adopt forks) [] ∧
      ∀ key run, engine.runs.get? key = some run →
        (engine.adopt forks).runs.get? key = some run := by
  induction forks generalizing engine with
  | nil => exact ⟨h, .refl engine, fun _ _ => id⟩
  | cons child rest ih =>
    obtain ⟨howned, hdepth, hstack⟩ := hf child (by simp)
    have hrest := fun other hm => hf other (List.mem_cons_of_mem _ hm)
    obtain ⟨top, callers, hs⟩ := List.exists_cons_of_ne_nil hstack
    have hcontext : child.context? = some top.context := by simp [Machine.context?, hs]
    have hactor : top.context.actor = actor := howned.contexts top (by simp [hs])
    unfold Engine.adopt
    rw [hcontext]
    dsimp only
    rw [hactor]
    have hb : Balanced engine.ledger engine.runs actor child.callDepth := by
      rw [hdepth]
      exact h.balanced actor
    obtain ⟨hsound, hleads⟩ := h.spawn howned hb top.context.origin
    have hkeeps := get?_spawn hb.tidy child actor top.context.origin
    generalize engine.spawn child actor top.context.origin = spawned at hsound hleads hkeeps ⊢
    obtain ⟨key, next⟩ := spawned
    have hqueued : ({ next with ready := next.ready ++ [key] } : Engine σ ρ).Sound running := by
      refine ⟨⟨hsound.chronicle, fun hu => ?_, hsound.rested, hsound.actions⟩, hsound.balanced⟩
      refine (hsound.scheduled hu).perm ?_
      rw [← List.append_assoc]
      exact List.perm_append_comm
    have hmove : Leads next { next with ready := next.ready ++ [key] } [] :=
      .of_news [] rfl rfl rfl
    obtain ⟨h₁, h₂, h₃⟩ := ih hrest hqueued
    exact ⟨h₁, (hleads.trans hmove).trans h₂, fun key run hk => h₃ key run (hkeeps key run hk)⟩

/-- Two engines differ in their runs, their journal and what they share at most. -/
structure Undisturbed (before after : Engine σ ρ) : Prop where
  /-- Sleeping entries are the same. -/
  sleeping : after.sleeping = before.sleeping
  /-- The queue is the same. -/
  ready : after.ready = before.ready
  /-- Pending reports are the same. -/
  pending : after.pending = before.pending
  /-- The number of runs that were parked is the same. -/
  sequence : after.sequence = before.sequence
  /-- The tick is the same. -/
  tick : after.tick = before.tick
  /-- The actions are the same. -/
  actions : after.actions = before.actions

omit [Host σ] [RandomSource ρ] in
/-- A run that ends is no longer there, is reported, and no longer counts. -/
theorem finish_of_get? {engine : Engine σ ρ} {key : RunKey} {run : Run}
    (hk : engine.runs.get? key = some run) (result : Except RunError (Option Value)) :
    (engine.finish key result).1 = some (report key run result) ∧
      (engine.finish key result).2.runs = engine.runs.erase key ∧
      (engine.finish key result).2.journal = .ended key :: engine.journal ∧
      (engine.finish key result).2.ledger = engine.ledger.endRun ∧
      Undisturbed engine (engine.finish key result).2 := by
  unfold finish
  simp only [hk]
  cases result with
  | ok value => exact ⟨trivial, rfl, rfl, rfl, ⟨rfl, rfl, rfl, rfl, rfl, rfl⟩⟩
  | error error => exact ⟨trivial, rfl, rfl, rfl, ⟨rfl, rfl, rfl, rfl, rfl, rfl⟩⟩

/-- A run ends after it was put back holding nothing: what is left is in order if
the ledger was given back what the run had. -/
theorem Sound.dismiss {engine middle : Engine σ ρ} {running others : List RunKey}
    (h : engine.Sound running) {key : RunKey} {run : Run}
    (hk : engine.runs.get? key = some run) (next : Run)
    (hr : middle.runs = engine.runs.set key next) (hj : middle.journal = engine.journal)
    (hq : Undisturbed engine middle) (hn : next.machine.stack = [])
    (hb : ∀ actor, Balanced middle.ledger middle.runs actor 0)
    (hs : Unworn engine.journal → ∀ actor,
      middle.ledger.suspensionCount actor + run.restsFor actor =
        engine.ledger.suspensionCount actor)
    (ho : Unworn engine.journal →
      (running ++ engine.ready).erase key = others ++ engine.ready)
    (result : Except RunError (Option Value)) :
    (middle.finish key result).2.Sound others ∧
      Leads engine (middle.finish key result).2 (middle.finish key result).1.toList := by
  have hput : middle.runs.get? key = some next := by
    rw [hr, SlotMap.get?_set hk, if_pos rfl]
  obtain ⟨hreport, hruns, hjournal, hledger, hquiet⟩ := finish_of_get? hput result
  rw [hreport]
  generalize (middle.finish key result).2 = after at hruns hjournal hledger hquiet ⊢
  rw [hj] at hjournal
  have hgone : after.runs = engine.runs.erase key := by rw [hruns, hr, SlotMap.erase_set hk]
  have hunworn : Unworn after.journal → Unworn engine.journal := by
    rw [hjournal]
    exact Unworn.of_append [.ended key]
  refine ⟨⟨⟨?_, fun hu => ?_, fun hu => ?_, ?_⟩, fun actor => ?_⟩, ⟨[.ended key], hjournal⟩, ?_, ?_⟩
  · rw [hgone, hjournal]
    exact h.chronicle.erase hk
  · have hu' := hunworn hu
    rw [hgone, hjournal, hquiet.sleeping, hquiet.ready, hquiet.sequence, hq.sleeping, hq.ready,
      hq.sequence, ← ho hu']
    exact (h.scheduled hu').erase h.chronicle.stamped hu' hk
  · have hu' := hunworn hu
    rw [hgone, hledger]
    exact (h.rested hu').erase hk (hs hu')
  · rw [hquiet.actions, hq.actions]
    exact h.actions
  · rw [hledger, hruns]
    exact (hb actor).erase hput hn
  · rw [hjournal]
    exact .refl _
  · rw [hquiet.pending, hq.pending]

/-- A run that is being executed and holds nothing ends. -/
theorem Sound.finish {engine : Engine σ ρ} {key : RunKey} {run : Run} (h : engine.Sound [key])
    (hk : engine.runs.get? key = some run) (hn : run.machine.stack = [])
    (result : Except RunError (Option Value)) :
    (engine.finish key result).2.Sound [] ∧
      Leads engine (engine.finish key result).2 (engine.finish key result).1.toList := by
  refine h.dismiss hk run (SlotMap.set_self hk).symm rfl ⟨rfl, rfl, rfl, rfl, rfl, rfl⟩ hn
    h.balanced ?_ (fun _ => List.erase_cons_head ..) result
  intro hu actor
  obtain ⟨other, ho, hp⟩ := ((h.scheduled hu).awake key).1 (by simp)
  rw [hk] at ho
  cases ho
  rw [Run.restsFor_eq_zero hp, Nat.add_zero]

/-- A run is cancelled: it gives back its calls and, if it is parked, its
suspension. A run that is not there is left alone. -/
theorem Sound.cancel {engine : Engine σ ρ} {running others : List RunKey}
    (h : engine.Sound running) (key : RunKey) (reason : CancelReason)
    (hr : (running ++ engine.ready).erase key = others ++ engine.ready)
    (hn : engine.runs.get? key = none → running = others) :
    (engine.cancel key reason).2.Sound others ∧
      Leads engine (engine.cancel key reason).2 (engine.cancel key reason).1.toList := by
  unfold Engine.cancel
  cases hk : engine.runs.get? key with
  | none => exact ⟨hn hk ▸ h, .refl engine⟩
  | some run =>
    have howned := (h.balanced run.actor).owned key run hk
    cases hp : run.parked with
    | false =>
      simp only [hp]
      have hx := Machine.exchange_close howned .cancelled ((h.balanced run.actor).covers hk)
      refine h.dismiss hk { run with machine := run.machine.ended, parked := false } ?_ ?_ ?_ rfl
        ?_ ?_ (fun _ => hr) _
      · rfl
      · rfl
      · exact ⟨rfl, rfl, rfl, rfl, rfl, rfl⟩
      · exact fun actor => (h.balanced actor).closed hk rfl rfl hx
      · intro hu actor
        rw [Run.restsFor_eq_zero hp, Nat.add_zero]
        exact hx.suspensions actor
    | true =>
      simp only [hp, if_true]
      have hb (actor : Actor) : Balanced (engine.ledger.resume run.actor)
          (engine.runs.set key { run with parked := false }) actor 0 :=
        (h.balanced actor).unpark hk run.actor
      have hget : (engine.runs.set key { run with parked := false }).get? key =
          some { run with parked := false } := by
        rw [SlotMap.get?_set hk, if_pos rfl]
      have hcovers := (hb run.actor).covers hget
      have hx : Exchange run.actor (engine.unpark key run).around.ledger run.machine.callDepth
          (run.machine.close .cancelled (engine.unpark key run).around).2.ledger 0 :=
        Machine.exchange_close howned .cancelled hcovers
      refine h.dismiss hk { run with machine := run.machine.ended, parked := false } ?_ ?_ ?_ rfl
        ?_ ?_ (fun _ => hr) _
      · exact SlotMap.set_set hk _ _
      · rfl
      · exact ⟨rfl, rfl, rfl, rfl, rfl, rfl⟩
      · exact fun actor => (hb actor).closed hget rfl rfl hx
      · intro hu actor
        have hresumed := (h.rested hu).resume hk hp actor
        have hclosed := hx.suspensions actor
        exact (congrArg (· + run.restsFor actor) hclosed).trans hresumed

/-- A parked run with a late call fails; any other run is left alone. -/
theorem Sound.expire {engine : Engine σ ρ} (h : engine.Sound []) {key : RunKey}
    (hp : ∀ run, engine.runs.get? key = some run → run.parked = true) :
    (engine.expire key).2.Sound [] ∧
      Leads engine (engine.expire key).2 (engine.expire key).1.toList := by
  unfold Engine.expire
  cases hk : engine.runs.get? key with
  | none => exact ⟨h, .refl engine⟩
  | some run =>
    dsimp only
    have howned := (h.balanced run.actor).owned key run hk
    have hcovers := (h.balanced run.actor).covers hk
    split
    · exact ⟨h, .refl engine⟩
    · rename_i error machine around heq
      have hs := Machine.stack_of_checkDeadlines heq
      have hx := Machine.exchange_checkDeadlines howned hcovers heq
      have hb (actor : Actor) : Balanced around.ledger (engine.runs.set key { run with machine })
          actor 0 := (h.balanced actor).closed hk rfl hs hx
      have hget : (engine.runs.set key { run with machine }).get? key =
          some { run with machine } := by
        rw [SlotMap.get?_set hk, if_pos rfl]
      refine h.dismiss hk { run with machine, parked := false } ?_ ?_ ?_ hs ?_ ?_ ?_ _
      · rfl
      · rfl
      · exact ⟨rfl, rfl, rfl, rfl, rfl, rfl⟩
      · intro actor
        have hunparked : Balanced (around.ledger.resume run.actor) ((engine.runs.set key
            { run with machine }).set key { run with machine, parked := false }) actor 0 :=
          (hb actor).unpark hget run.actor
        rw [SlotMap.set_set hk] at hunparked
        exact hunparked
      · intro hu actor
        have hrested : Rested around.ledger engine.runs := (h.rested hu).of_counts hx.suspensions
        exact (hrested.resume hk (hp run hk) actor).trans (hx.suspensions actor)
      · intro hu
        refine List.erase_of_not_mem fun hm => ?_
        obtain ⟨other, ho, hawake⟩ := ((h.scheduled hu).awake key).1 hm
        rw [hp other ho] at hawake
        cases hawake

omit [Host σ] [RandomSource ρ] in
/-- Ending a run takes it away and leaves the queue alone. -/
theorem finish_runs (engine : Engine σ ρ) (key : RunKey) (result : Except RunError (Option Value)) :
    (engine.finish key result).2.runs = engine.runs.erase key ∧
      (engine.finish key result).2.ready = engine.ready := by
  cases hk : engine.runs.get? key with
  | none => simp [finish, SlotMap.erase, hk]
  | some run =>
    obtain ⟨-, hruns, -, -, hquiet⟩ := finish_of_get? hk result
    exact ⟨hruns, hquiet.ready⟩

omit [RandomSource ρ] in
/-- What is under way after a run expired was under way before. -/
theorem get?_of_expire {engine : Engine σ ρ} {key other : RunKey} {run : Run}
    (h : (engine.expire key).2.runs.get? other = some run) :
    engine.runs.get? other = some run := by
  unfold Engine.expire at h
  cases hk : engine.runs.get? key with
  | none => simpa only [hk] using h
  | some found =>
    simp only [hk] at h
    split at h
    · exact h
    · rw [(finish_runs _ _ _).1, SlotMap.get?_erase] at h
      split at h
      · cases h
      · rename_i hne
        rw [← h]
        exact ((SlotMap.get?_set hk _ other).trans (if_neg hne)).symm

/-- All runs with a late call among some parked ones fail. -/
theorem Sound.expireAll {keys : List RunKey} {engine : Engine σ ρ} (h : engine.Sound [])
    (hp : ∀ key ∈ keys, ∀ run, engine.runs.get? key = some run → run.parked = true) :
    (engine.expireAll keys).2.Sound [] ∧
      Leads engine (engine.expireAll keys).2 (engine.expireAll keys).1 := by
  induction keys generalizing engine with
  | nil => exact ⟨h, .refl engine⟩
  | cons key rest ih =>
    obtain ⟨hone, hlead⟩ := h.expire (hp key (by simp))
    have hparked : ∀ other ∈ rest, ∀ run, (engine.expire key).2.runs.get? other = some run →
        run.parked = true :=
      fun other hm run hk => hp other (List.mem_cons_of_mem _ hm) run (get?_of_expire hk)
    obtain ⟨hall, hleads⟩ := ih hone hparked
    exact ⟨hall, hlead.trans hleads⟩

omit [RandomSource ρ] in
/-- Cancelling a run leaves the queue alone. -/
theorem cancel_ready (engine : Engine σ ρ) (key : RunKey) (reason : CancelReason) :
    (engine.cancel key reason).2.ready = engine.ready := by
  unfold Engine.cancel
  cases engine.runs.get? key with
  | none => rfl
  | some run =>
    dsimp only
    rw [(finish_runs _ _ _).2]
    split <;> rfl

/-- All runs among some keys are cancelled. -/
theorem Sound.cancelAll (reason : CancelReason) (keys : List RunKey) {engine : Engine σ ρ}
    (h : engine.Sound []) (hr : engine.ready = []) :
    (engine.cancelAll reason keys).2.Sound [] ∧
      Leads engine (engine.cancelAll reason keys).2 (engine.cancelAll reason keys).1 ∧
      (engine.cancelAll reason keys).2.ready = [] := by
  induction keys generalizing engine with
  | nil => exact ⟨h, .refl engine, hr⟩
  | cons key rest ih =>
    obtain ⟨hone, hlead⟩ := h.cancel key reason (by simp [hr]) fun _ => rfl
    have hready := (cancel_ready engine key reason).trans hr
    obtain ⟨hall, hleads, hend⟩ := ih hone hready
    exact ⟨hall, hlead.trans hleads, hend⟩

/-- A run that ended its slice without being parked is put back as it is. -/
theorem Sound.afterSlice {engine : Engine σ ρ} {key : RunKey} {run : Run} (h : engine.Sound [key])
    (hk : engine.runs.get? key = some run) {slice : Slice σ ρ}
    (hs : slice.Accounted run.actor engine.ledger run.machine.callDepth)
    (hp : slice.ending.isParked = false) :
    (engine.afterSlice key run slice).Sound [key] := by
  have hcount (actor : Actor) : slice.around.ledger.suspensionCount actor =
      engine.ledger.suspensionCount actor := by simpa [hp] using hs.suspended actor
  obtain ⟨loads, hl⟩ := slice.around.ledger.recordSteps_eq run.origin slice.steps
  have hledger : (engine.afterSlice key run slice).ledger = { slice.around.ledger with loads } := hl
  refine ⟨⟨?_, fun hu => ?_, fun hu => ?_, h.actions⟩, fun actor => ?_⟩
  · have hget := (SlotMap.get?_set hk (run.afterSlice slice) key).trans (if_pos rfl)
    exact (h.chronicle.set hk _).event rfl rfl hget
  · have hput : Scheduled (engine.runs.set key (run.afterSlice slice)) engine.sleeping
        ([key] ++ engine.ready) engine.sequence engine.journal :=
      (h.scheduled (hu.of_append [_])).set hk rfl
    exact hput.append [.executed key engine.tick slice.steps]
  · rw [hledger]
    refine (h.rested (hu.of_append [_])).set hk fun actor => ?_
    exact congrArg (· + run.restsFor actor) (hcount actor)
  · rw [hledger]
    refine (h.balanced actor).set hk rfl hs.owned ?_ fun other => ?_
    · exact { hs.exchange with suspensions := fun _ => rfl }
    · exact Nat.le_trans (Nat.le_of_eq (hcount other)) ((h.balanced actor).suspensions other)

/-- A run that is parked at the end of its slice goes to sleep. -/
theorem Sound.park {engine : Engine σ ρ} {key : RunKey} {run : Run} (h : engine.Sound [key])
    (hk : engine.runs.get? key = some run) {slice : Slice σ ρ}
    (hs : slice.Accounted run.actor engine.ledger run.machine.callDepth)
    (hp : slice.ending.isParked = true) (ticks : Nat) :
    ((engine.afterSlice key run slice).park key (run.afterSlice slice) ticks).Sound [] := by
  have hcount (actor : Actor) : slice.around.ledger.suspensionCount actor =
      engine.ledger.suspensionCount actor + if actor = run.actor then 1 else 0 := by
    simpa [hp] using hs.suspended actor
  obtain ⟨loads, hl⟩ := slice.around.ledger.recordSteps_eq run.origin slice.steps
  have hledger : ((engine.afterSlice key run slice).park key (run.afterSlice slice) ticks).ledger =
      { slice.around.ledger with loads } := hl
  have hruns : ((engine.afterSlice key run slice).park key (run.afterSlice slice) ticks).runs =
      engine.runs.set key { run.afterSlice slice with parked := true } :=
    SlotMap.set_set hk _ _
  refine ⟨⟨?_, fun hu => ?_, fun hu => ?_, h.actions⟩, fun actor => ?_⟩
  · rw [hruns]
    have hget := (SlotMap.get?_set hk { run.afterSlice slice with parked := true } key).trans
      (if_pos rfl)
    exact ((h.chronicle.set hk _).event rfl rfl hget).event rfl rfl hget
  · rw [hruns]
    exact ((h.scheduled (hu.of_append [_, _])).park rfl _).append [_, _]
  · rw [hruns, hledger]
    have hu' : Unworn engine.journal := hu.of_append [_, _]
    refine (h.rested hu').set hk fun actor => ?_
    obtain ⟨other, ho, hawake⟩ := ((h.scheduled hu').awake key).1 (by simp)
    rw [hk] at ho
    cases ho
    rw [Run.restsFor_eq_zero hawake]
    have hrests : ({ run.afterSlice slice with parked := true } : Run).restsFor actor =
        if actor = run.actor then 1 else 0 := by
      simp [Run.restsFor, Run.afterSlice, eq_comm]
    rw [hrests]
    exact hcount actor
  · rw [hruns, hledger]
    refine (h.balanced actor).set hk rfl hs.owned ?_ fun other => ?_
    · exact { hs.exchange with suspensions := fun _ => rfl }
    · have hle := (h.balanced actor).suspensions other
      refine Nat.le_trans (Nat.le_of_eq (hcount other)) ?_
      by_cases ho : other = run.actor
      · subst ho
        rw [if_pos rfl]
        exact hs.room hp
      · rw [if_neg ho]
        exact hle

/-- What a slice leads to keeps the engine sound. -/
theorem Sound.conclude {engine : Engine σ ρ} {key : RunKey} {run : Run} (h : engine.Sound [key])
    (hk : engine.runs.get? key = some run) {slice : Slice σ ρ}
    (hs : slice.Accounted run.actor engine.ledger run.machine.callDepth) :
    (engine.conclude key run slice).2.Sound [] ∧
      Leads engine (engine.conclude key run slice).2 (engine.conclude key run slice).1.toList := by
  have hexecuted : Leads engine (engine.afterSlice key run slice) [] :=
    .of_news [.executed key engine.tick slice.steps] rfl rfl rfl
  unfold Engine.conclude
  dsimp only
  cases hending : slice.ending with
  | parked ticks =>
    have hsound := h.park hk hs (by rw [hending]; rfl) ticks
    have hparked : Leads (engine.afterSlice key run slice)
        ((engine.afterSlice key run slice).park key (run.afterSlice slice) ticks) [] :=
      .of_news [.suspended key _] rfl rfl rfl
    obtain ⟨hadopted, hleads, -⟩ := hsound.adopt hs.forks
    exact ⟨hadopted, (hexecuted.trans hparked).trans hleads⟩
  | done result =>
    have hdone : slice.ending.isParked = false := by rw [hending]; rfl
    obtain ⟨hadopted, hleads, hkeeps⟩ := (h.afterSlice hk hs hdone).adopt hs.forks
    have hget := hkeeps key (run.afterSlice slice)
      ((SlotMap.get?_set hk _ key).trans (if_pos rfl))
    obtain ⟨hfinished, hreport⟩ := hadopted.finish hget (hs.settles hdone) result
    exact ⟨hfinished, (hexecuted.trans hleads).trans hreport⟩

/-- A run that is being executed gets its slice. -/
theorem Sound.runSlice {engine : Engine σ ρ} {key : RunKey} (h : engine.Sound [key]) :
    (engine.runSlice key).2.Sound [] ∧
      Leads engine (engine.runSlice key).2 (engine.runSlice key).1.toList := by
  unfold Engine.runSlice
  cases hk : engine.runs.get? key with
  | none =>
    refine ⟨⟨⟨h.chronicle, fun hu => ?_, h.rested, h.actions⟩, h.balanced⟩, .refl engine⟩
    obtain ⟨run, hr, -⟩ := ((h.scheduled hu).awake key).1 (by simp)
    rw [hk] at hr
    cases hr
  | some run =>
    refine h.conclude hk (Machine.accounted_slice h.actions _ _ ?_ ?_ (by simp))
    · exact (h.balanced run.actor).owned key run hk
    · exact (h.balanced run.actor).covers hk

/-- The next run of the queue is taken out to be executed. -/
theorem Sound.pop {engine : Engine σ ρ} {key : RunKey} {rest : List RunKey} (h : engine.Sound [])
    (hr : engine.ready = key :: rest) :
    ({ engine with ready := rest } : Engine σ ρ).Sound [key] := by
  refine ⟨⟨h.chronicle, fun hu => ?_, h.rested, h.actions⟩, h.balanced⟩
  have hscheduled := h.scheduled hu
  rw [hr] at hscheduled
  exact hscheduled

/-- Draining the queue gives a report for every run that ends, and empties it. -/
theorem Sound.drain {fuel : Nat} {engine after : Engine σ ρ} {reports all : List RunReport}
    (h : engine.Sound []) (hd : engine.drain fuel reports = some (all, after)) :
    after.Sound [] ∧ after.ready = [] ∧
      ∃ more, all = reports ++ more ∧ Leads engine after more := by
  induction fuel generalizing engine reports with
  | zero =>
    unfold Engine.drain at hd
    split at hd
    · rename_i hr
      cases hd
      exact ⟨h, List.isEmpty_iff.1 hr, [], by simp, .refl _⟩
    · cases hd
  | succ fuel ih =>
    unfold Engine.drain at hd
    split at hd
    · rename_i hr
      cases hd
      exact ⟨h, hr, [], by simp, .refl _⟩
    · rename_i key rest hr
      dsimp only at hd
      obtain ⟨hslice, hlead⟩ := (h.pop hr).runSlice
      obtain ⟨hall, hready, more, hmore, hleads⟩ := ih hslice hd
      have hpop : Leads engine { engine with ready := rest } [] := .of_news [] rfl rfl rfl
      refine ⟨hall, hready, _, ?_, (hpop.trans hlead).trans hleads⟩
      rw [hmore, List.append_assoc, List.nil_append]

/-- A run is started: its report is given if it ended, and the reports of runs it
split off are pending. -/
theorem Kept.start {fuel : Nat} {engine after : Engine σ ρ} {machine : Machine} {actor : Actor}
    {origin : Place} {execution : Execution} (h : engine.Kept []) (ho : machine.Owned actor)
    (hb : Balanced engine.ledger engine.runs actor machine.callDepth)
    (hs : engine.start fuel machine actor origin = some (execution, after)) :
    after.Sound [] ∧ after.ready = [] ∧ ∃ forked,
      after.pending = engine.pending ++ forked ∧
      (∃ news, after.journal = news ++ engine.journal) ∧
      (endings after.journal).Perm
        ((execution.report?.toList ++ forked).map (·.key) ++ endings engine.journal) := by
  unfold Engine.start at hs
  obtain ⟨hspawned, hstarted⟩ := h.spawn ho hb origin
  generalize engine.spawn machine actor origin = spawned at hspawned hstarted hs
  obtain ⟨key, started⟩ := spawned
  dsimp only at hspawned hstarted hs
  obtain ⟨hslice, hlead⟩ := hspawned.runSlice
  generalize started.runSlice key = sliced at hslice hlead hs
  obtain ⟨report, sliced⟩ := sliced
  dsimp only at hslice hlead hs
  simp only [Option.bind_eq_bind, Option.bind_eq_some_iff, Option.pure_def, Option.some.injEq] at hs
  obtain ⟨⟨forked, drained⟩, hdrain, hend⟩ := hs
  obtain ⟨hdrained, hready, more, hmore, hleads⟩ := hslice.drain hdrain
  rw [List.nil_append] at hmore
  subst hmore
  have hall := (hstarted.trans hlead).trans hleads
  have hreport : execution.report? = report := by
    cases hend
    cases report <;> rfl
  cases hend
  refine ⟨⟨⟨hdrained.chronicle, hdrained.scheduled, hdrained.rested, hdrained.actions⟩,
    hdrained.balanced⟩, hready, forked, ?_, hall.journal, ?_⟩
  · exact congrArg (· ++ forked) hall.pending
  · rw [hreport]
    exact hall.reports

/-- A run that is due wakes up, if it is still there. -/
theorem Sound.wake {engine : Engine σ ρ} {due : Due} {key : RunKey}
    {rest : List (Due × RunKey)} (h : engine.Sound [])
    (he : engine.sleeping.entries = (due, key) :: rest) {run : Run}
    (hk : engine.runs.get? key = some run) :
    (({ engine with sleeping := engine.sleeping.erase due } : Engine σ ρ).unpark key run).Sound
      [key] := by
  refine ⟨⟨h.chronicle.set hk _, fun hu => ?_, fun hu => ?_, h.actions⟩, fun actor => ?_⟩
  · exact (h.scheduled hu).wake he hk rfl
  · refine (h.rested hu).set hk fun actor => ?_
    have hparked : run.parked = true := by
      rw [← (h.scheduled hu).asleep key run hk, sleepers, he]
      simp
    have hawake : ({ run with parked := false } : Run).restsFor actor = 0 :=
      Run.restsFor_eq_zero rfl actor
    rw [hawake, Nat.add_zero]
    exact (h.rested hu).resume hk hparked actor
  · exact (h.balanced actor).unpark hk run.actor

/-- The first sleeping entry is taken up: the run it leads to gets a slice or is
cancelled, and an entry that leads nowhere is dropped. -/
theorem Sound.takeUp {engine : Engine σ ρ} {due : Due} {key : RunKey} {rest : List (Due × RunKey)}
    (h : engine.Sound []) (he : engine.sleeping.entries = (due, key) :: rest) :
    let woken : Engine σ ρ := { engine with sleeping := engine.sleeping.erase due }
    (woken.takeUp key).2.Sound [] ∧ Leads engine (woken.takeUp key).2 (woken.takeUp key).1.toList := by
  intro woken
  have hwoken : Leads engine woken [] := .of_news [] rfl rfl rfl
  unfold Engine.takeUp
  cases hk : engine.runs.get? key with
  | none =>
    dsimp only
    refine ⟨⟨⟨h.chronicle, fun hu => ?_, h.rested, h.actions⟩, h.balanced⟩, hwoken⟩
    exact (h.scheduled hu).drop he hk
  | some run =>
    dsimp only
    have hsound : (woken.unpark key run).Sound [key] := h.wake he hk
    have hunparked : Leads woken (woken.unpark key run) [] := .of_news [] rfl rfl rfl
    have hawake : (woken.unpark key run).runs.get? key = some { run with parked := false } :=
      (SlotMap.get?_set hk _ key).trans (if_pos rfl)
    split
    · have hresumed : ((woken.unpark key run).record
          (.resumed key (woken.unpark key run).tick)).Sound [key] :=
        ⟨⟨hsound.chronicle.event rfl rfl hawake,
          fun hu => (hsound.scheduled (hu.of_append [_])).append [_],
          fun hu => hsound.rested (hu.of_append [_]), hsound.actions⟩, hsound.balanced⟩
      have hrecorded : Leads (woken.unpark key run) ((woken.unpark key run).record
          (.resumed key (woken.unpark key run).tick)) [] := .of_news [_] rfl rfl rfl
      obtain ⟨hslice, hleads⟩ := hresumed.runSlice
      exact ⟨hslice, ((hwoken.trans hunparked).trans hrecorded).trans hleads⟩
    · have hother : (woken.unpark key run).runs.get? key = none → [key] = [] := by
        rw [hawake]
        exact fun hn => by cases hn
      obtain ⟨hcancelled, hleads⟩ :=
        hsound.cancel key (.disconnected run.actor) (List.erase_cons_head ..) hother
      exact ⟨hcancelled, (hwoken.trans hunparked).trans hleads⟩

omit [Host σ] [RandomSource ρ] in
/-- The run that is due first has the first sleeping entry. -/
theorem entries_of_firstDue? {engine : Engine σ ρ} {due : Due} {key : RunKey}
    (h : engine.firstDue? = some (due, key)) :
    (∃ rest, engine.sleeping.entries = (due, key) :: rest) ∧ due.tick ≤ engine.tick := by
  unfold firstDue? at h
  rw [Option.filter_eq_some_iff] at h
  exact ⟨List.head?_eq_some_iff.1 h.1, of_decide_eq_true h.2⟩

/-- Taking up all runs that are due gives a report for every run that ends. -/
theorem Sound.resumeDue {fuel : Nat} {engine after : Engine σ ρ} {reports all : List RunReport}
    (h : engine.Sound []) (hd : engine.resumeDue fuel reports = some (all, after)) :
    after.Sound [] ∧ ∃ more, all = reports ++ more ∧ Leads engine after more := by
  induction fuel generalizing engine reports with
  | zero =>
    unfold Engine.resumeDue at hd
    split at hd
    · cases hd
      exact ⟨h, [], by simp, .refl _⟩
    · cases hd
  | succ fuel ih =>
    unfold Engine.resumeDue at hd
    split at hd
    · cases hd
      exact ⟨h, [], by simp, .refl _⟩
    · rename_i due key hfirst
      dsimp only at hd
      obtain ⟨⟨rest, he⟩, -⟩ := entries_of_firstDue? hfirst
      obtain ⟨htaken, hlead⟩ := h.takeUp he
      obtain ⟨hall, more, hmore, hleads⟩ := ih htaken hd
      refine ⟨hall, _, ?_, hlead.trans hleads⟩
      rw [hmore, List.append_assoc]

/-- A tick hands out the pending reports and those of the runs that end. -/
theorem Sound.nextTick {fuel : Nat} {engine after : Engine σ ρ} {reports : List RunReport}
    (h : engine.Sound []) (hd : engine.nextTick fuel = some (reports, after)) :
    after.Sound [] ∧ after.ready = [] ∧ after.pending = [] ∧
      ∃ more, reports = engine.pending ++ more ∧
        (∃ news, after.journal = news ++ engine.journal) ∧
        (endings after.journal).Perm (more.map (·.key) ++ endings engine.journal) := by
  unfold Engine.nextTick at hd
  dsimp only at hd
  obtain ⟨moved, hmoved⟩ : ∃ moved : Engine σ ρ,
      { engine with tick := engine.tick + 1, pending := [] } = moved := ⟨_, rfl⟩
  rw [hmoved] at hd
  have hsound : moved.Sound [] := by
    subst hmoved
    exact ⟨⟨h.chronicle, h.scheduled, h.rested, h.actions⟩, h.balanced⟩
  have hjournal : moved.journal = engine.journal := by
    subst hmoved
    rfl
  have hpending : moved.pending = [] := by
    subst hmoved
    rfl
  have hparked : ∀ key ∈ engine.runs.keysWhere (·.parked), ∀ run,
      moved.runs.get? key = some run → run.parked = true := by
    subst hmoved
    intro key hm run hk
    obtain ⟨other, ho, hp⟩ := SlotMap.mem_keysWhere.1 hm
    rw [hk] at ho
    cases ho
    exact hp
  obtain ⟨hexpired, hlead⟩ := hsound.expireAll hparked
  simp only [Option.bind_eq_bind, Option.bind_eq_some_iff] at hd
  obtain ⟨⟨resumed, awake⟩, hresume, hdrain⟩ := hd
  obtain ⟨hawake, more, hmore, hleads⟩ := hexpired.resumeDue hresume
  obtain ⟨hdrained, hready, rest, hrest, hlast⟩ := hawake.drain hdrain
  have hall := (hlead.trans hleads).trans hlast
  refine ⟨hdrained, hready, hall.pending.trans hpending, _, ?_, hjournal ▸ hall.journal,
    hjournal ▸ hall.reports⟩
  rw [hrest, hmore, List.append_assoc, List.append_assoc, List.append_assoc]

end Engine

end GridScript
