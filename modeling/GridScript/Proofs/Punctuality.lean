import GridScript.Proofs.Courses
import GridScript.Proofs.Histories
import Mathlib.Data.List.Nodup

/-!
# Runs are taken up on time

A run that is parked for some ticks is left alone until the tick has moved on as
often, and is then taken up in that very tick, unless it was cancelled or failed
before. Runs that are due in one tick are taken up in the order in which they were
parked, and those that are split off in it are served after them, in the order in
which they were split off.

The first law is an induction over the deeds that follow: whatever is not about the
run keeps its sleeping entry, and the entry says how many ticks are to go. As it
traces the run by its key, it holds as long as no slot is worn out.
-/

namespace GridScript

open Journal

variable {σ ρ : Type} [Host σ] [RandomSource ρ]

/-- What is not worn out at last was not before. -/
theorem Journal.Unworn.of_suffix {journal longer : List RunEvent} (h : Unworn longer)
    (hs : journal <:+ longer) : Unworn journal := by
  obtain ⟨news, rfl⟩ := hs
  exact h.of_append news

/-- What comes before another moment is of an earlier tick, or was parked before. -/
theorem Due.lt_of_compare {due other : Due} (h : compare due other = .lt) :
    due.tick < other.tick ∨ due.tick = other.tick ∧ due.sequence < other.sequence := by
  obtain hlt | ⟨heq, hlt⟩ := Ordering.then_eq_lt.1 h
  · exact .inl (Std.compare_eq_lt.1 hlt)
  · exact .inr ⟨Std.LawfulEqOrd.eq_of_compare heq, Nat.compare_eq_lt.1 hlt⟩

/-- What may follow when a run is parked with a number of ticks to go. -/
inductive Awaited (due : Due) (key : RunKey) : Nat → List (Deed σ ρ) → Prop where
  /-- Nothing: its tick is yet to come. -/
  | asleep (ticks : Nat) : Awaited due key (ticks + 1) []
  /-- The tick moves on. -/
  | advance {ticks : Nat} {later : List (Deed σ ρ)} (rest : Awaited due key ticks later) :
    Awaited due key (ticks + 1) (.advance :: later)
  /-- Something is done that is not about the run. -/
  | other {ticks : Nat} {deed : Deed σ ρ} {later : List (Deed σ ρ)} (about : deed.key? ≠ some key)
    (calm : deed.isAdvance = false) (rest : Awaited due key ticks later) :
    Awaited due key ticks (deed :: later)
  /-- It is taken up in the tick in which it is due. -/
  | takenUp (later : List (Deed σ ρ)) : Awaited due key 0 (.wake due key :: later)
  /-- It is stopped before that tick, alone or with others. -/
  | cancelled (ticks : Nat) (reason : CancelReason) (later : List (Deed σ ρ)) :
    Awaited due key (ticks + 1) (.cancel key reason :: later)
  /-- It fails because a call of it is late. -/
  | expired (ticks : Nat) (later : List (Deed σ ρ)) : Awaited due key ticks (.expire key :: later)

namespace Engine

variable {engine middle after : Engine σ ρ} {deed : Deed σ ρ} {deeds more : List (Deed σ ρ)}
  {key : RunKey} {due : Due} {ticks : Nat}

omit [Host σ] [RandomSource ρ] in
/-- The tick ahead as a number. -/
theorem toNat_dueTick (now : UInt64) (ticks : Nat) :
    (dueTick now ticks).toNat = min (now.toNat + ticks) (UInt64.size - 1) := by
  have hsize : UInt64.size = 2 ^ 64 := rfl
  unfold dueTick
  rw [UInt64.toNat_ofNat_of_lt' (by omega)]

omit [RandomSource ρ] in
/-- What a deed leaves of the sleeping entries was there before. -/
theorem mem_of_stillSleeping (ha : engine.Admits deed) {entry : Due × RunKey}
    (h : entry ∈ (engine.stillSleeping deed).entries) : entry ∈ engine.sleeping.entries := by
  cases deed with
  | wake due key | discard due key =>
    obtain ⟨⟨rest, hentries⟩, -⟩ := entries_of_firstDue? ha.1
    exact (Scheduled.sleepers_erase hentries).2 entry h
  | forget => cases h
  | launch | serve | expire | cancel | advance | adjust => exact h

/-- A sleeping entry was left by a deed, or is that of the run that is parked in it. -/
theorem Outcome.mem_sleeping (h : Outcome engine deed after) (hi : engine.InOrder [])
    (ha : engine.Admits deed) (entry : Due × RunKey) :
    entry ∈ after.sleeping.entries ↔ entry ∈ (engine.stillSleeping deed).entries ∨
      ∃ ticks, engine.parked? deed = some (entry.2, ticks) ∧
        entry.1 = ⟨dueTick engine.tick ticks, engine.sequence⟩ := by
  cases hparked : engine.parked? deed with
  | none =>
    rw [(h.unparked hparked).2]
    simp
  | some waiting =>
    obtain ⟨key, ticks⟩ := waiting
    have hfresh : ∀ other ∈ (engine.stillSleeping deed).entries,
        other.1.sequence < engine.sequence := fun other hm =>
      hi.fresh other (mem_of_stillSleeping ha hm)
    rw [(h.parked key ticks hparked).2.2.1, (entries_insert_perm hfresh _ key).mem_iff,
      List.mem_cons, or_comm]
    refine or_congr_right ⟨?_, ?_⟩
    · rintro rfl
      exact ⟨ticks, rfl, rfl⟩
    · rintro ⟨other, heq, hdue⟩
      cases heq
      exact Prod.ext hdue rfl

omit [Host σ] [RandomSource ρ] in
/-- If nothing is due, all entries are of later ticks. -/
theorem lt_of_firstDue?_eq_none (h : engine.firstDue? = none) {entry : Due × RunKey}
    (hm : entry ∈ engine.sleeping.entries) : engine.tick < entry.1.tick := by
  have hascending := engine.sleeping.ascending
  unfold firstDue? at h
  cases hentries : engine.sleeping.entries with
  | nil =>
    rw [hentries] at hm
    cases hm
  | cons first rest =>
    rw [hentries] at h hm hascending
    have hfirst : engine.tick < first.1.tick := by
      simpa using h
    rcases List.mem_cons.1 hm with rfl | hm
    · exact hfirst
    · have hafter := (List.pairwise_cons.1 hascending).1 entry hm
      obtain hlt | ⟨heq, -⟩ := Due.lt_of_compare hafter
      · exact UInt64.lt_trans hfirst hlt
      · exact heq ▸ hfirst

/-- All entries are of later ticks, except in the last tick there is. -/
def Ahead (engine : Engine σ ρ) : Prop :=
  ∀ entry ∈ engine.sleeping.entries,
    engine.tick < entry.1.tick ∨ entry.1.tick.toNat + 1 = UInt64.size

/-- A course within a tick leaves no entry of this tick. -/
theorem Ahead.course (h : engine.Ahead) (hc : Course engine deeds after)
    (hi : engine.InOrder []) (hp : engine.actions.Paced)
    (hn : ∀ deed ∈ deeds, deed.isAdvance = false) : after.Ahead := by
  induction hc with
  | done => exact h
  | @next engine after deed rest admitted _ ih =>
    have hone := hi.outcome admitted
    have htick : (engine.carryOut deed).tick = engine.tick := by
      rw [hone.tick, hn deed List.mem_cons_self]
      rfl
    refine ih ?_ hone.inOrder (hone.actions ▸ hp) fun other hm => hn other (.tail _ hm)
    intro entry hm
    rw [htick]
    rcases (hone.mem_sleeping hi admitted entry).1 hm with hold | ⟨ticks, hparked, hdue⟩
    · exact h entry (mem_of_stillSleeping admitted hold)
    · have hpos := parked?_pos hp hparked
      have hnext := toNat_dueTick engine.tick ticks
      have hsize : UInt64.size = 2 ^ 64 := rfl
      rw [hdue, UInt64.lt_iff_toNat_lt]
      dsimp only
      omega

/-- A run is parked, with a number of ticks to go. -/
structure Pending (engine : Engine σ ρ) (key : RunKey) (due : Due) (ticks : Nat) : Prop where
  /-- It is under way and parked. -/
  run : ∃ run, engine.runs.get? key = some run ∧ run.parked = true
  /-- It has a sleeping entry. -/
  entry : (due, key) ∈ engine.sleeping.entries
  /-- It is due after the number of ticks. -/
  tick : due.tick.toNat = engine.tick.toNat + ticks

namespace Pending

/-- A run that is parked waits for the number of ticks. -/
theorem of_parked (hi : engine.InOrder []) (ha : engine.Admits deed)
    (h : engine.parked? deed = some (key, ticks)) (ht : engine.tick.toNat + ticks < 2 ^ 64) :
    (engine.carryOut deed).Pending key ⟨.ofNat (engine.tick.toNat + ticks), engine.sequence⟩
      ticks := by
  have hone := hi.outcome ha
  have hdue : dueTick engine.tick ticks = .ofNat (engine.tick.toNat + ticks) := by
    rw [← UInt64.toNat_inj, toNat_dueTick, UInt64.toNat_ofNat_of_lt' ht]
    have hsize : UInt64.size = 2 ^ 64 := rfl
    omega
  have hcalm : deed.isAdvance = false := by
    cases deed with
    | advance => cases h
    | _ => rfl
  refine ⟨(hone.parked key ticks h).2.2.2, ?_, ?_⟩
  · exact (hone.mem_sleeping hi ha _).2 (.inr ⟨ticks, h, by rw [hdue]⟩)
  · rw [hone.tick, hcalm]
    exact UInt64.toNat_ofNat_of_lt' ht

/-- Whatever is not about the run leaves it alone. -/
theorem other (h : engine.Pending key due ticks) (hi : engine.InOrder []) (ha : engine.Admits deed)
    (hk : deed.key? ≠ some key) :
    (∃ run, (engine.carryOut deed).runs.get? key = some run ∧ run.parked = true) ∧
      (due, key) ∈ (engine.carryOut deed).sleeping.entries := by
  have hone := hi.outcome ha
  obtain ⟨run, hrun, hparked⟩ := h.run
  refine ⟨⟨run, hone.kept key run hk hrun, hparked⟩, (hone.mem_sleeping hi ha _).2 (.inl ?_)⟩
  cases deed with
  | wake moment first | discard moment first =>
    obtain ⟨⟨rest, hentries⟩, -⟩ := entries_of_firstDue? ha.1
    have hentry := h.entry
    rw [hentries] at hentry
    change (due, key) ∈ (engine.sleeping.erase moment).entries
    rw [entries_erase_head hentries]
    rcases List.mem_cons.1 hentry with heq | hm
    · cases heq
      exact absurd rfl hk
    · exact hm
  | forget =>
    rw [ha key] at hrun
    cases hrun
  | launch | serve | expire | cancel | advance | adjust => exact h.entry

omit [RandomSource ρ] in
/-- The only deeds about the run are that it is taken up when it is due, that it
fails because it is late, and that it is cancelled. -/
theorem about (h : engine.Pending key due ticks) (hi : engine.InOrder [])
    (hu : Unworn engine.journal) (ha : engine.Admits deed) (hk : deed.key? = some key) :
    (ticks = 0 ∧ deed = .wake due key) ∨ deed = .expire key ∨
      ∃ reason, deed = .cancel key reason := by
  have hscheduled := hi.scheduled hu
  obtain ⟨run, hrun, hparked⟩ := h.run
  cases deed with
  | launch new machine actor origin =>
    cases hk
    have hnew := SlotMap.get?_insert_key hi.tidy ⟨machine, actor, origin, 0, false⟩
    obtain rfl := ha
    cases hnew.symm.trans hrun
  | serve first =>
    cases hk
    obtain ⟨found, hfound, hawake⟩ := (hscheduled.awake key).1 (List.mem_of_mem_head? ha)
    cases hfound.symm.trans hrun
    cases hawake.symm.trans hparked
  | wake moment first =>
    cases hk
    obtain ⟨⟨rest, hentries⟩, hle⟩ := entries_of_firstDue? ha.1
    have hfirst : (moment, key) ∈ engine.sleeping.entries := hentries ▸ List.mem_cons_self
    cases List.inj_on_of_nodup_map hscheduled.alone hfirst h.entry rfl
    have hnow := h.tick
    rw [UInt64.le_iff_toNat_le] at hle
    exact .inl ⟨by omega, rfl⟩
  | discard moment first =>
    cases hk
    cases ha.2.symm.trans hrun
  | expire first =>
    cases hk
    exact .inr (.inl rfl)
  | cancel first reason =>
    cases hk
    exact .inr (.inr ⟨reason, rfl⟩)
  | advance | forget | adjust => cases hk

/-- Within a tick the run is left alone or it is clear what becomes of it. -/
theorem course (h : engine.Pending key due ticks) (hc : Course engine deeds after)
    (hi : engine.InOrder []) (hu : Unworn after.journal)
    (hn : ∀ deed ∈ deeds, deed.isAdvance = false)
    (hz : ticks = 0 → ∀ reason, .cancel key reason ∉ deeds) :
    (after.Pending key due ticks ∧
      ∀ later, Awaited due key ticks later → Awaited due key ticks (deeds ++ later)) ∨
      ∀ later, Awaited due key ticks (deeds ++ later) := by
  induction hc with
  | done => exact .inl ⟨h, fun _ hlater => hlater⟩
  | @next engine after deed rest admitted others ih =>
    have hone := hi.outcome admitted
    have hcalm := hn deed List.mem_cons_self
    by_cases hk : deed.key? = some key
    · have hworn : Unworn engine.journal :=
        (hu.of_suffix (others.inOrder hone.inOrder).2.1).of_suffix hone.journal
      refine .inr fun later => ?_
      obtain ⟨rfl, rfl⟩ | rfl | ⟨reason, rfl⟩ := h.about hi hworn admitted hk
      · exact .takenUp _
      · exact .expired _ _
      · cases ticks with
        | zero => exact absurd List.mem_cons_self (hz rfl reason)
        | succ left => exact .cancelled _ _ _
    · obtain ⟨hrun, hentry⟩ := h.other hi admitted hk
      have htick : due.tick.toNat = (engine.carryOut deed).tick.toNat + ticks := by
        rw [hone.tick, hcalm]
        exact h.tick
      have hrest := ih ⟨hrun, hentry, htick⟩ hone.inOrder hu (fun other hm => hn other (.tail _ hm))
        fun heq reason hm => hz heq reason (.tail _ hm)
      rcases hrest with ⟨hpending, hawaited⟩ | hawaited
      · exact .inl ⟨hpending, fun later hlater => .other hk hcalm (hawaited later hlater)⟩
      · exact .inr fun later => .other hk hcalm (hawaited later)

/-- When the tick moves on there is one less to go. -/
theorem advance (h : engine.Pending key due (ticks + 1)) :
    (engine.carryOut .advance).Pending key due ticks := by
  refine ⟨h.run, h.entry, ?_⟩
  have hnow := h.tick
  have hlast : due.tick.toNat < 2 ^ 64 := due.tick.toNat_lt
  change due.tick.toNat = (engine.tick + 1).toNat + ticks
  rw [UInt64.toNat_add]
  change due.tick.toNat = (engine.tick.toNat + 1) % 2 ^ 64 + ticks
  omega

end Pending

/-- After some deeds a run still waits, or it is clear what becomes of it. -/
def Foreseen (engine : Engine σ ρ) (key : RunKey) (due : Due) (ticks : Nat)
    (deeds : List (Deed σ ρ)) : Prop :=
  (∃ left, engine.Pending key due (left + 1) ∧
    ∀ later, Awaited due key (left + 1) later → Awaited due key ticks (deeds ++ later)) ∨
    ∀ later, Awaited due key ticks (deeds ++ later)

namespace Foreseen

omit [Host σ] [RandomSource ρ] in
/-- What is foreseen comes true. -/
theorem awaited (h : engine.Foreseen key due ticks deeds) : Awaited due key ticks deeds := by
  rw [← List.append_nil deeds]
  obtain ⟨left, -, hawaited⟩ | hawaited := h
  · exact hawaited [] (.asleep left)
  · exact hawaited []

omit [Host σ] [RandomSource ρ] in
/-- What is foreseen for a run that waits is foreseen from the beginning. -/
theorem append (h : engine.Foreseen key due ticks deeds)
    (hn : ∀ left, engine.Pending key due (left + 1) → after.Foreseen key due (left + 1) more) :
    after.Foreseen key due ticks (deeds ++ more) := by
  obtain ⟨left, hpending, hawaited⟩ | hawaited := h
  · obtain ⟨last, hlast, hmore⟩ | hmore := hn left hpending
    · refine .inl ⟨last, hlast, fun later hlater => ?_⟩
      rw [List.append_assoc]
      exact hawaited _ (hmore later hlater)
    · refine .inr fun later => ?_
      rw [List.append_assoc]
      exact hawaited _ (hmore later)
  · refine .inr fun later => ?_
    rw [List.append_assoc]
    exact hawaited _

omit [Host σ] [RandomSource ρ] in
/-- The tick moves on. -/
theorem advance (h : engine.Foreseen key due ticks deeds) :
    engine.Foreseen key due (ticks + 1) (.advance :: deeds) := by
  obtain ⟨left, hpending, hawaited⟩ | hawaited := h
  · exact .inl ⟨left, hpending, fun later hlater => .advance (hawaited later hlater)⟩
  · exact .inr fun later => .advance (hawaited later)

end Foreseen

/-- Within a tick, what becomes of a run that waits for a later one is foreseen. -/
theorem Pending.foreseen (h : engine.Pending key due (ticks + 1)) (hc : Course engine deeds after)
    (hi : engine.InOrder []) (hu : Unworn after.journal)
    (hn : ∀ deed ∈ deeds, deed.isAdvance = false) :
    after.Foreseen key due (ticks + 1) deeds := by
  obtain ⟨hpending, hawaited⟩ | hawaited := h.course hc hi hu hn nofun
  · exact .inl ⟨ticks, hpending, hawaited⟩
  · exact .inr hawaited

end Engine

namespace TickCourse

variable {engine middle after : Engine σ ρ} {late taken first : List (Deed σ ρ)}

/-- The tick moves on only once. -/
theorem calm (h : TickCourse engine late taken first middle after) :
    ∀ deed ∈ late ++ taken ++ first, deed.isAdvance = false := by
  intro deed hm
  simp only [List.mem_append] at hm
  rcases hm with (hm | hm) | hm
  · obtain ⟨key, rfl⟩ := h.expire deed hm
    rfl
  · have htakeUp := h.takeUp deed hm
    cases deed with
    | advance => cases htakeUp
    | _ => rfl
  · have hserve := h.serve deed hm
    cases deed with
    | advance => cases hserve
    | _ => rfl

/-- The deeds that follow when the tick has moved on. -/
theorem moved (h : TickCourse engine late taken first middle after) (hi : engine.InOrder []) :
    (engine.carryOut .advance).InOrder [] ∧
      Course (engine.carryOut .advance) (late ++ taken) middle := by
  cases h.begins with
  | next admitted others => exact ⟨(hi.outcome admitted).inOrder, others⟩

/-- A tick makes clear what becomes of a run that waits for it. -/
theorem foreseen (h : TickCourse engine late taken first middle after) (hi : engine.InOrder [])
    (hu : Unworn after.journal) {key : RunKey} {due : Due} {ticks : Nat}
    (hp : engine.Pending key due (ticks + 1)) :
    after.Foreseen key due (ticks + 1) (.advance :: (late ++ taken) ++ first) := by
  obtain ⟨hmoved, hcourse⟩ := h.moved hi
  cases ticks with
  | succ left =>
    exact (hp.advance.foreseen (hcourse.append h.ends) hmoved hu h.calm).advance
  | zero =>
    have hmiddle : middle.InOrder [] := (hcourse.inOrder hmoved).1
    have hworn : Unworn middle.journal := hu.of_suffix (h.ends.inOrder hmiddle).2.1
    have hcalm : ∀ deed ∈ late ++ taken, deed.isAdvance = false := fun deed hm =>
      h.calm deed (List.mem_append_left _ hm)
    have hkind (reason : CancelReason) : .cancel key reason ∉ late ++ taken := by
      intro hm
      rcases List.mem_append.1 hm with hm | hm
      · obtain ⟨other, heq⟩ := h.expire _ hm
        cases heq
      · cases h.takeUp _ hm
    obtain ⟨hpending, -⟩ | hawaited := hp.advance.course hcourse hmoved hworn hcalm fun _ => hkind
    · have hlater : middle.tick < due.tick :=
        Engine.lt_of_firstDue?_eq_none h.exhausted hpending.entry
      have hnow := hpending.tick
      rw [UInt64.lt_iff_toNat_lt] at hlater
      omega
    · refine .inr fun later => ?_
      have hall := hawaited (first ++ later)
      rw [← List.append_assoc] at hall
      exact .advance hall

end TickCourse

namespace Performs

variable {engine after : Engine σ ρ} {operation : Operation σ} {deeds : List (Deed σ ρ)}

/-- The tick moves on at the beginning of an operation or not at all. -/
theorem calm (h : Performs engine operation deeds after) :
    ∀ deed ∈ deeds.tail, deed.isAdvance = false := by
  intro deed hm
  by_cases ho : operation = .tick
  · obtain ⟨late, taken, first, middle, rfl, htick⟩ := h.tick ho
    exact htick.calm deed hm
  · exact (h.belongs deed (List.mem_of_mem_tail hm)).calm ho

/-- What becomes of a run that waits is foreseen by every operation. -/
theorem foreseen (h : Performs engine operation deeds after) (hi : engine.InOrder [])
    (hu : Unworn after.journal) {key : RunKey} {due : Due} {ticks : Nat}
    (hp : engine.Pending key due (ticks + 1)) : after.Foreseen key due (ticks + 1) deeds := by
  by_cases ho : operation = .tick
  · obtain ⟨late, taken, first, middle, rfl, htick⟩ := h.tick ho
    exact htick.foreseen hi hu hp
  · exact hp.foreseen h.course hi hu fun deed hm => (h.belongs deed hm).calm ho

end Performs

namespace Timeline

variable {start engine now : Engine σ ρ} {deeds earlier later : List (Deed σ ρ)} {deed : Deed σ ρ}
  {key : RunKey} {ticks : Nat}

/-- Right before each deed of a timeline the engine is in order. -/
theorem reaches (h : Timeline start deeds engine) (hd : deeds = earlier ++ later)
    (hc : Course start earlier now) :
    now.InOrder [] ∧ now.actions.Paced ∧ now.sequence = (start.suspended earlier).length ∧
      Course now later engine := by
  obtain ⟨hstart, hactions, hsequence⟩ := h.begins
  obtain ⟨hinOrder, -, hsame⟩ := hc.inOrder hstart
  obtain ⟨middle, hfirst, hrest⟩ := (hd ▸ h.course).split
  obtain rfl := hfirst.unique hc
  refine ⟨hinOrder, ?_, ?_, hrest⟩
  · rw [hsame, hactions]
    exact ActionTable.paced_standard
  · rw [hc.sequence hstart, hsequence, Nat.zero_add]

/-- What becomes of a run that is parked is foreseen at any time after. -/
theorem foreseen (h : Timeline start deeds engine) (hu : Unworn engine.journal)
    (hd : deeds = earlier ++ deed :: later) (hc : Course start earlier now)
    (hp : now.parked? deed = some (key, ticks)) (ht : now.tick.toNat + ticks < 2 ^ 64) :
    engine.Foreseen key ⟨.ofNat (now.tick.toNat + ticks), now.sequence⟩ ticks later := by
  induction h generalizing later with
  | initial => simp at hd
  | @step start engine after deeds more fuel operation reports past performed performs ih =>
    obtain ⟨hnow, hpaced, -, hrest⟩ := (past.step performed performs).reaches hd hc
    have hengine := (past.course.inOrder past.begins.1).1
    have hbefore : Unworn engine.journal := hu.of_suffix (performs.course.inOrder hengine).2.1
    have hlast (lead : List (Deed σ ρ)) (hmore : more = lead ++ deed :: later) :
        after.Foreseen key ⟨.ofNat (now.tick.toNat + ticks), now.sequence⟩ ticks later := by
      have hcalm : ∀ other ∈ later, other.isAdvance = false := by
        intro other hm
        refine performs.calm other ?_
        rw [hmore]
        cases lead <;> simp [hm]
      cases hrest with
      | next admitted others =>
        have hpending := Engine.Pending.of_parked hnow admitted hp ht
        have hparked := (hnow.outcome admitted).inOrder
        obtain ⟨left, rfl⟩ := Nat.exists_eq_add_of_lt (Engine.parked?_pos hpaced hp)
        rw [Nat.zero_add] at hpending ⊢
        exact hpending.foreseen others hparked hu hcalm
    rcases List.append_eq_append_iff.1 hd with ⟨lead, -, hmore⟩ | ⟨between, hdeeds, hmore⟩
    · exact hlast lead hmore
    · cases between with
      | nil => exact hlast [] hmore.symm
      | cons first between =>
        obtain ⟨rfl, rfl⟩ := List.cons.inj hmore
        refine (ih hbefore hdeeds hc).append fun left hpending => ?_
        exact performs.foreseen hengine hu hpending

end Timeline

namespace Course

variable {engine after : Engine σ ρ} {deeds : List (Deed σ ρ)}

/-- Whatever is not about a run leaves it as it is. -/
theorem get?_eq (h : Course engine deeds after) (hi : engine.InOrder []) {key : RunKey} {run : Run}
    (hk : engine.runs.get? key = some run) (hn : ∀ deed ∈ deeds, deed.key? ≠ some key) :
    after.runs.get? key = some run := by
  induction h with
  | done => exact hk
  | next admitted _ ih =>
    have hone := hi.outcome admitted
    refine ih hone.inOrder ?_ fun other hm => hn other (.tail _ hm)
    exact hone.kept key run (hn _ List.mem_cons_self) hk

/-- Runs that are due in one tick are taken up in the order in which they were
parked. -/
theorem takesUp (h : Course engine deeds after) (hi : engine.InOrder [])
    (hk : ∀ deed ∈ deeds, deed.due?.isSome)
    (ha : ∀ entry ∈ engine.sleeping.entries, engine.tick ≤ entry.1.tick) {floor : Nat}
    (hf : ∀ entry ∈ engine.sleeping.entries, entry.1.tick = engine.tick →
      floor ≤ entry.1.sequence) :
    (deeds.filterMap Deed.due?).Pairwise (·.sequence < ·.sequence) ∧
      ∀ due ∈ deeds.filterMap Deed.due?, due.tick = engine.tick ∧ floor ≤ due.sequence := by
  induction h generalizing floor with
  | done => exact ⟨.nil, nofun⟩
  | @next engine after deed rest admitted _ ih =>
    have hone := hi.outcome admitted
    obtain ⟨due, key, hdue, hfirst, hstill, hcalm⟩ : ∃ due key, deed.due? = some due ∧
        engine.firstDue? = some (due, key) ∧
        engine.stillSleeping deed = engine.sleeping.erase due ∧ deed.isAdvance = false := by
      have hone := hk deed List.mem_cons_self
      cases deed with
      | wake due key => exact ⟨due, key, rfl, admitted.1, rfl, rfl⟩
      | discard due key => exact ⟨due, key, rfl, admitted.1, rfl, rfl⟩
      | _ => cases hone
    obtain ⟨⟨others, hentries⟩, hle⟩ := Engine.entries_of_firstDue? hfirst
    have hmem : (due, key) ∈ engine.sleeping.entries := hentries ▸ List.mem_cons_self
    have hnow : due.tick = engine.tick := UInt64.le_antisymm hle (ha _ hmem)
    have htick : (engine.carryOut deed).tick = engine.tick := by
      rw [hone.tick, hcalm]
      rfl
    have hfresh : due.sequence < engine.sequence := hi.fresh _ hmem
    have hlater (entry : Due × RunKey)
        (hm : entry ∈ (engine.carryOut deed).sleeping.entries) :
        engine.tick ≤ entry.1.tick ∧ (entry.1.tick = engine.tick →
          due.sequence + 1 ≤ entry.1.sequence) := by
      rcases (hone.mem_sleeping hi admitted entry).1 hm with hold | ⟨ticks, -, hnew⟩
      · rw [hstill, entries_erase_head hentries] at hold
        have hascending := engine.sleeping.ascending
        rw [hentries] at hascending
        have hbetween := (List.pairwise_cons.1 hascending).1 entry hold
        obtain hlt | ⟨heq, hlt⟩ := Due.lt_of_compare hbetween
        · rw [hnow] at hlt
          exact ⟨UInt64.le_of_lt hlt, fun heq => absurd heq (UInt64.ne_of_lt hlt).symm⟩
        · exact ⟨UInt64.le_of_eq (hnow.symm.trans heq), fun _ => hlt⟩
      · rw [hnew]
        have hahead := Engine.toNat_dueTick engine.tick ticks
        have hlast := engine.tick.toNat_lt_size
        refine ⟨?_, fun _ => hfresh⟩
        rw [UInt64.le_iff_toNat_le]
        dsimp only
        omega
    obtain ⟨hascend, hrest⟩ := ih hone.inOrder (fun other hm => hk other (.tail _ hm))
      (fun entry hm => htick ▸ (hlater entry hm).1)
      fun entry hm heq => (hlater entry hm).2 (heq.trans htick)
    rw [List.filterMap_cons_some hdue]
    constructor
    · exact List.pairwise_cons.2 ⟨fun other hm => (hrest other hm).2, hascend⟩
    · intro other hm
      rcases List.mem_cons.1 hm with rfl | hm
      · exact ⟨hnow, hf _ hmem hnow⟩
      · obtain ⟨hsame, hle⟩ := hrest other hm
        have hfloor := hf _ hmem hnow
        dsimp only at hfloor
        exact ⟨hsame.trans htick, by omega⟩

/-- The queue is served in the order in which its runs were started. -/
theorem serves (h : Course engine deeds after) (hi : engine.InOrder [])
    (hk : ∀ deed ∈ deeds, deed.launched? = none ∧ deed ≠ .forget) :
    ∃ fresh, engine.ready ++ fresh = deeds.filterMap Deed.served? ++ after.ready ∧
      starts after.journal = fresh.reverse ++ starts engine.journal := by
  induction h with
  | done => exact ⟨[], by simp, rfl⟩
  | @next engine after deed rest admitted _ ih =>
    have hone := hi.outcome admitted
    obtain ⟨hlaunched, hforget⟩ := hk deed List.mem_cons_self
    obtain ⟨fresh, hready, hstarts⟩ := hone.queue
    obtain ⟨more, hrest, hlater⟩ := ih hone.inOrder fun other hm => hk other (.tail _ hm)
    rw [hlaunched] at hstarts
    have hqueue : engine.ready = deed.served?.toList ++ engine.stillReady deed := by
      cases deed with
      | serve key => exact List.eq_cons_of_mem_head? admitted
      | forget => exact absurd rfl hforget
      | _ => rfl
    refine ⟨fresh ++ more, ?_, ?_⟩
    · have hserved : (deed :: rest).filterMap Deed.served? =
          deed.served?.toList ++ rest.filterMap Deed.served? := by
        cases hfirst : deed.served? <;> simp [hfirst]
      calc engine.ready ++ (fresh ++ more)
          = deed.served?.toList ++ (engine.stillReady deed ++ fresh ++ more) := by
            rw [hqueue, List.append_assoc, List.append_assoc]
        _ = deed.served?.toList ++ (rest.filterMap Deed.served? ++ after.ready) := by
            rw [← hready, hrest]
        _ = (deed :: rest).filterMap Deed.served? ++ after.ready := by
            rw [hserved, List.append_assoc]
    · rw [hlater, hstarts]
      simp

end Course

namespace TickCourse

variable {engine middle after : Engine σ ρ} {late taken first : List (Deed σ ρ)}

/-- Runs that fail because they are late leave their entries behind. -/
theorem sleeping_expired (h : Course engine late middle) (hi : engine.InOrder [])
    (hk : ∀ deed ∈ late, ∃ key, deed = .expire key) :
    middle.sleeping = engine.sleeping ∧ middle.tick = engine.tick := by
  induction h with
  | done => exact ⟨rfl, rfl⟩
  | next admitted _ ih =>
    have hone := hi.outcome admitted
    obtain ⟨hsleeping, htick⟩ := ih hone.inOrder fun other hm => hk other (.tail _ hm)
    obtain ⟨key, rfl⟩ := hk _ List.mem_cons_self
    exact ⟨hsleeping.trans (hone.unparked rfl).2, htick.trans hone.tick⟩

/-- Runs that are due are taken up in the order in which they were parked. -/
theorem inTurn (h : TickCourse engine late taken first middle after) (hi : engine.InOrder [])
    (ha : engine.Ahead) :
    (taken.filterMap Deed.due?).Pairwise (·.sequence < ·.sequence) ∧
      ∀ due ∈ taken.filterMap Deed.due?, due.tick = engine.tick + 1 := by
  obtain ⟨hmoved, hcourse⟩ := h.moved hi
  obtain ⟨next, hlate, htaken⟩ := hcourse.split
  obtain ⟨hsleeping, htick⟩ := sleeping_expired hlate hmoved h.expire
  have hnow : next.tick = engine.tick + 1 := htick
  have hreached (entry : Due × RunKey) (hm : entry ∈ next.sleeping.entries) :
      next.tick ≤ entry.1.tick := by
    rw [hsleeping] at hm
    have hahead := ha entry hm
    have hsum : next.tick.toNat = (engine.tick.toNat + 1) % 2 ^ 64 := by
      rw [hnow]
      exact UInt64.toNat_add ..
    have hlast := entry.1.tick.toNat_lt_size
    have hsize : UInt64.size = 2 ^ 64 := rfl
    rw [UInt64.le_iff_toNat_le]
    rw [UInt64.lt_iff_toNat_lt] at hahead
    omega
  obtain ⟨hascend, hdue⟩ := htaken.takesUp (hlate.inOrder hmoved).1 h.takeUp hreached
    fun _ _ _ => Nat.zero_le _
  exact ⟨hascend, fun due hm => (hdue due hm).1.trans hnow⟩

/-- Runs that are split off in a tick are served in that order. -/
theorem starts_eq (h : TickCourse engine late taken first middle after) (hi : engine.InOrder [])
    (hb : engine.ready = []) (ha : after.ready = []) :
    starts after.journal = (first.filterMap Deed.served?).reverse ++ starts engine.journal := by
  have hunserved : (.advance :: (late ++ taken)).filterMap Deed.served? = [] := by
    refine List.filterMap_eq_nil_iff.2 fun deed hm => ?_
    simp only [List.mem_cons, List.mem_append] at hm
    rcases hm with rfl | hm | hm
    · rfl
    · obtain ⟨key, rfl⟩ := h.expire deed hm
      rfl
    · have htakeUp := h.takeUp deed hm
      cases deed with
      | serve => cases htakeUp
      | _ => rfl
  have hkind : ∀ deed ∈ .advance :: (late ++ taken) ++ first,
      deed.launched? = none ∧ deed ≠ .forget := by
    intro deed hm
    have hbelongs := h.performs.belongs deed hm
    cases deed with
    | launch => cases hbelongs
    | forget => cases hbelongs
    | _ => exact ⟨rfl, nofun⟩
  obtain ⟨fresh, hready, hstarts⟩ := h.performs.course.serves hi hkind
  rw [hb, ha, List.filterMap_append, hunserved, List.append_nil, List.nil_append,
    List.nil_append] at hready
  rw [hstarts, hready]

end TickCourse

/-- Between operations all entries are of later ticks, except in the last tick. -/
theorem Timeline.ahead {start engine : Engine σ ρ} {deeds : List (Deed σ ρ)}
    (h : Timeline start deeds engine) : engine.Ahead := by
  induction h with
  | initial => nofun
  | @step start engine after deeds more fuel operation reports past performed performs ih =>
    obtain ⟨hengine, hpaced, -, -⟩ := past.reaches (List.append_nil deeds).symm past.course
    by_cases ho : operation = .tick
    · obtain ⟨late, taken, first, middle, rfl, htick⟩ := performs.tick ho
      obtain ⟨hmiddle, -, hactions⟩ := htick.begins.inOrder hengine
      have hahead : middle.Ahead := fun entry hm =>
        .inl (Engine.lt_of_firstDue?_eq_none htick.exhausted hm)
      exact hahead.course htick.ends hmiddle (hactions ▸ hpaced) fun deed hm =>
        htick.calm deed (List.mem_append_right _ hm)
    · exact ih.course performs.course hengine hpaced fun deed hm =>
        (performs.belongs deed hm).calm ho

namespace History

/-- Every history has a timeline of deeds, and in every one of them a run is parked
for at least one tick; until the tick in which it is due it stays as it is, and in
that tick it is taken up, unless it was cancelled or failed before. In a tick the
runs that are due are taken up in the order in which they were parked, and then those
that were split off in it are served in the order in which they were split off. After
it no entry of the tick is left, unless it is the last one. -/
theorem continuations_punctual {engine : Engine σ ρ} {returned : List RunReport}
    (h : History engine returned) :
    (∃ start deeds, Timeline start deeds engine) ∧
      (∀ start earlier deed later now key ticks,
        Timeline start (earlier ++ deed :: later) engine → Course start earlier now →
        now.parked? deed = some (key, ticks) →
          1 ≤ ticks ∧
          (∃ run, ∀ between rest next, later = between ++ rest →
            (∀ other ∈ between, other.key? ≠ some key) →
            Course (now.carryOut deed) between next → next.runs.get? key = some run) ∧
          (Unworn engine.journal → now.tick.toNat + ticks < 2 ^ 64 →
            Awaited ⟨.ofNat (now.tick.toNat + ticks), (start.suspended earlier).length⟩ key ticks
              later)) ∧
      (∀ fuel reports after deeds, engine.perform fuel .tick = some (reports, after) →
        Performs engine .tick deeds after →
        ∃ late taken first, deeds = .advance :: (late ++ taken) ++ first ∧
          (∀ deed ∈ late, ∃ key, deed = .expire key) ∧
          (∀ deed ∈ taken, deed.due?.isSome) ∧
          (∀ deed ∈ first, deed.served?.isSome) ∧
          (∀ due ∈ taken.filterMap Deed.due?, due.tick = engine.tick + 1) ∧
          (taken.filterMap Deed.due?).Pairwise (·.sequence < ·.sequence) ∧
          starts after.journal = (first.filterMap Deed.served?).reverse ++ starts engine.journal) ∧
      (engine.tick.toNat + 1 < 2 ^ 64 →
        ∀ entry ∈ engine.sleeping.entries, engine.tick < entry.1.tick) := by
  obtain ⟨start, deeds, htimeline⟩ := h.exists_timeline
  have hahead := htimeline.ahead
  refine ⟨⟨start, deeds, htimeline⟩, ?_, ?_, ?_⟩
  · intro start earlier deed later now key ticks htimeline hearlier hparked
    obtain ⟨hnow, hpaced, hsequence, hrest⟩ := htimeline.reaches rfl hearlier
    refine ⟨Engine.parked?_pos hpaced hparked, ?_, fun hu ht => ?_⟩
    · cases hrest with
      | next admitted _ =>
        have hone := hnow.outcome admitted
        obtain ⟨run, hrun, -⟩ := (hone.parked key ticks hparked).2.2.2
        refine ⟨run, fun between rest next _ hother hbetween => ?_⟩
        exact hbetween.get?_eq hone.inOrder hrun hother
    · rw [← hsequence]
      exact (htimeline.foreseen hu rfl hearlier hparked ht).awaited
  · intro fuel reports after deeds hperform hperforms
    obtain ⟨late, taken, first, middle, hdeeds, htick⟩ := hperforms.tick rfl
    have hengine := (htimeline.course.inOrder htimeline.begins.1).1
    obtain ⟨hascend, hdue⟩ := htick.inTurn hengine hahead
    have hstarts := htick.starts_eq hengine h.settled.2.1 (h.step hperform).settled.2.1
    exact ⟨late, taken, first, hdeeds, htick.expire, htick.takeUp, htick.serve, hdue, hascend,
      hstarts⟩
  · intro ht entry hm
    rcases hahead entry hm with hlt | hlast
    · exact hlt
    · have hsize : UInt64.size = 2 ^ 64 := rfl
      rw [UInt64.lt_iff_toNat_lt]
      omega

/-- A program that waits for a tick. -/
def dozeProgram : Program where
  kind := .event "start"
  root := .mk ⟨6, "start", .event, none, .empty, .plain, none⟩ []
    (some (.mk ⟨7, "wait", .control, some "wait", .empty, .plain, none⟩ [] none))
  origin := default
  catalogueVersion := 0

/-- The start of a run of it. -/
def dozeLaunch : Deed MinimalHost ReplaySource :=
  .launch ⟨0, 0⟩ (.ofScript (.ofProgram dozeProgram) (.start ⟨"alice"⟩ default .empty)) ⟨"alice"⟩
    default

/-- The run is parked for a tick, and when the tick has moved on it was taken up. -/
theorem continuations_punctual_doze : ∃ (engine : Engine MinimalHost ReplaySource)
    (returned : List RunReport) (later : List (Deed MinimalHost ReplaySource)),
    History engine returned ∧ Timeline quietEngine (dozeLaunch :: later) engine ∧
      quietEngine.parked? dozeLaunch = some (⟨0, 0⟩, 1) ∧ engine.tick = 1 ∧
      engine.runs.size = 0 ∧ Awaited ⟨1, 0⟩ ⟨0, 0⟩ 1 later := by
  have hparked : quietEngine.parked? dozeLaunch = some (⟨0, 0⟩, 1) := by decide +kernel
  have hcounts : ((quietEngine.performAll 1 []
      [.execute dozeProgram ⟨"alice"⟩ default, .tick]).map fun last =>
      (last.2.tick, last.2.runs.size, last.2.journal.length)) = some (1, 0, 6) := by
    decide +kernel
  obtain ⟨⟨returned, engine⟩, hlast, hend⟩ := Option.map_eq_some_iff.1 hcounts
  simp only [Prod.mk.injEq] at hend
  obtain ⟨htick, hsize, hlength⟩ := hend
  have h : History engine returned := (History.initial ..).performAll hlast
  have hu : Unworn engine.journal := .of_length (by rw [hlength]; decide)
  simp only [Engine.performAll, Option.bind_eq_bind, Option.bind_eq_some_iff,
    Option.some.injEq] at hlast
  obtain ⟨⟨reports, parked⟩, hexecute, ⟨more, woken⟩, hmoved, hwoken⟩ := hlast
  obtain ⟨-, rfl⟩ := Prod.ext_iff.1 hwoken
  have hstart := hexecute
  simp only [Engine.perform, Option.bind_eq_bind, Option.bind_eq_some_iff] at hstart
  obtain ⟨⟨execution, dozing⟩, hstart, hreport⟩ := hstart
  cases hreport
  obtain ⟨rest, hcourse, hbelongs⟩ := Engine.exists_launch
    (show Operation.isTrigger (.execute dozeProgram ⟨"alice"⟩ default) from rfl) hstart
  have hperforms : Performs quietEngine (.execute dozeProgram ⟨"alice"⟩ default)
      (dozeLaunch :: rest) dozing :=
    ⟨hcourse, List.forall_mem_cons.2 ⟨rfl, hbelongs⟩, fun h => absurd h (Operation.ne_tick rfl)⟩
  have hdozing : Timeline quietEngine (dozeLaunch :: rest) dozing :=
    (Timeline.initial ..).step hexecute hperforms
  obtain ⟨others, hothers⟩ := Engine.exists_performs hdozing.ready hmoved
  have hall := hdozing.step hmoved hothers
  refine ⟨woken, returned, rest ++ others, h, hall, hparked, htick, hsize, ?_⟩
  exact ((continuations_punctual h).2.1 quietEngine [] dozeLaunch (rest ++ others) quietEngine
    ⟨0, 0⟩ 1 hall (.done _) hparked).2.2 hu (by decide)

end History

end GridScript
