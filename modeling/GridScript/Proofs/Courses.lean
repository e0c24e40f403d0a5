import GridScript.Proofs.Reports

/-!
# Courses of deeds

Every operation that comes to an end is a course of deeds of the kinds that belong
to it: triggers launch runs and serve the queue, runs are cancelled only by the
operations that stop them, and a tick moves on, fails the runs that are late, takes
up those that are due until there are none, and then serves the queue. The reports
of runs that end in it are handed out or pending afterwards. A timeline is a history
with all deeds written out.
-/

namespace GridScript

open Journal

variable {σ ρ : Type} [Host σ] [RandomSource ρ]

/-- Deeds that an engine does one after the other. -/
inductive Course : Engine σ ρ → List (Deed σ ρ) → Engine σ ρ → Prop where
  /-- Nothing is done. -/
  | done (engine : Engine σ ρ) : Course engine [] engine
  /-- A deed, and then others. -/
  | next {engine after : Engine σ ρ} {deed : Deed σ ρ} {rest : List (Deed σ ρ)}
    (admitted : engine.Admits deed) (others : Course (engine.carryOut deed) rest after) :
    Course engine (deed :: rest) after

namespace Course

variable {engine middle after : Engine σ ρ} {deeds more : List (Deed σ ρ)}

/-- One deed. -/
theorem single {deed : Deed σ ρ} (h : engine.Admits deed) :
    Course engine [deed] (engine.carryOut deed) :=
  .next h (.done _)

/-- Two courses in a row. -/
theorem append (h₁ : Course engine deeds middle) (h₂ : Course middle more after) :
    Course engine (deeds ++ more) after := by
  induction h₁ with
  | done => exact h₂
  | next admitted _ ih => exact .next admitted (ih h₂)

/-- A course can be cut anywhere. -/
theorem split (h : Course engine (deeds ++ more) after) :
    ∃ middle, Course engine deeds middle ∧ Course middle more after := by
  induction deeds generalizing engine with
  | nil => exact ⟨engine, .done engine, h⟩
  | cons deed rest ih =>
    cases h with
    | next admitted others =>
      obtain ⟨middle, hrest, hmore⟩ := ih others
      exact ⟨middle, .next admitted hrest, hmore⟩

/-- The same deeds lead to the same engine. -/
theorem unique {other : Engine σ ρ} (h₁ : Course engine deeds after)
    (h₂ : Course engine deeds other) : after = other := by
  induction h₁ with
  | done =>
    cases h₂
    rfl
  | next _ _ ih =>
    cases h₂ with
    | next _ others => exact ih others

/-- Whatever every deed keeps is kept by all of them. -/
theorem inOrder (h : Course engine deeds after) (hi : engine.InOrder []) :
    after.InOrder [] ∧ engine.journal <:+ after.journal ∧ after.actions = engine.actions := by
  induction h with
  | done => exact ⟨hi, List.suffix_rfl, rfl⟩
  | next admitted _ ih =>
    have hone := hi.outcome admitted
    obtain ⟨hlast, hjournal, hactions⟩ := ih hone.inOrder
    exact ⟨hlast, hone.journal.trans hjournal, hactions.trans hone.actions⟩

end Course

/-- The runs that are parked in a course of deeds, in order. -/
def Engine.suspended (engine : Engine σ ρ) : List (Deed σ ρ) → List RunKey
  | [] => []
  | deed :: rest =>
    ((engine.parked? deed).map Prod.fst).toList ++ (engine.carryOut deed).suspended rest

/-- The engine counts the runs that were parked. -/
theorem Course.sequence {engine after : Engine σ ρ} {deeds : List (Deed σ ρ)}
    (h : Course engine deeds after) (hi : engine.InOrder []) :
    after.sequence = engine.sequence + (engine.suspended deeds).length := by
  induction h with
  | done => rfl
  | @next engine after deed rest admitted _ ih =>
    have hone := hi.outcome admitted
    rw [ih hone.inOrder, Engine.suspended, List.length_append]
    cases hparked : engine.parked? deed with
    | none =>
      rw [(hone.unparked hparked).1, Option.map_none, Option.toList_none, List.length_nil,
        Nat.zero_add]
    | some waiting =>
      rw [(hone.parked waiting.1 waiting.2 hparked).2.1, Option.map_some, Option.toList_some,
        List.length_singleton, Nat.add_assoc]

/-- Whether an operation starts runs. -/
def Operation.isTrigger : Operation σ → Bool
  | .execute .. | .call .. | .fireLine .. | .fireEvent .. => true
  | _ => false

/-- Whether a deed is of a kind that belongs to an operation. -/
def Deed.BelongsTo (operation : Operation σ) : Deed σ ρ → Prop
  | .launch .. => operation.isTrigger
  | .serve _ => operation.isTrigger ∨ operation = .tick
  | .wake .. | .discard .. | .expire _ | .advance => operation = .tick
  | .cancel key reason =>
    (operation = .stop key ∧ reason = .stopped) ∨
      (∃ actor, operation = .disconnect actor ∧ reason = .disconnected actor) ∨
      (operation = .shutdown ∧ reason = .shutdown)
  | .forget => operation = .shutdown
  | .adjust .. => operation ≠ .tick

omit [Host σ] in
/-- A tick starts no runs from outside. -/
theorem Operation.ne_tick {operation : Operation σ} (h : operation.isTrigger) :
    operation ≠ .tick := by
  rintro rfl
  cases h

omit [Host σ] [RandomSource ρ] in
/-- Only a tick moves the tick on. -/
theorem Deed.BelongsTo.calm {operation : Operation σ} {deed : Deed σ ρ}
    (h : deed.BelongsTo operation) (ho : operation ≠ .tick) : deed.isAdvance = false := by
  cases deed with
  | advance => exact absurd h ho
  | _ => rfl

/-- A machine at the entry of a program, or of a call that was accepted. -/
inductive Machine.AtEntry : Machine → Prop where
  /-- It runs a program. -/
  | program (script : Script) (context : Context) : AtEntry (.ofScript script context)
  /-- It runs a call. -/
  | call (call : ActiveCall) (context : Context) : AtEntry (.ofCall call context)

/-- A deed that starts a run, if it is one, starts it at an entry. -/
def Deed.FromEntry (deed : Deed σ ρ) : Prop :=
  ∀ key machine actor origin, deed = .launch key machine actor origin → machine.AtEntry

omit [Host σ] [RandomSource ρ] in
/-- An operation that starts no runs has no such deeds. -/
theorem Deed.BelongsTo.fromEntry {operation : Operation σ} {deed : Deed σ ρ}
    (h : deed.BelongsTo operation) (ho : operation.isTrigger = false) : deed.FromEntry := by
  rintro key machine actor origin rfl
  cases ho.symm.trans h

/-- A deed that an operation does: it belongs to it and starts no run elsewhere than at an
entry. -/
structure Deed.Suits (deed : Deed σ ρ) (operation : Operation σ) : Prop where
  /-- It is of a kind that belongs to the operation. -/
  belongs : deed.BelongsTo operation
  /-- A run that it starts is started at an entry. -/
  fromEntry : deed.FromEntry

/-- How a tick goes: it moves on, fails the runs that are late, takes up those that
are due until there are none, and serves the queue. -/
structure TickCourse (engine : Engine σ ρ) (late due first : List (Deed σ ρ))
    (middle after : Engine σ ρ) : Prop where
  /-- Runs that are late fail. -/
  expire : ∀ deed ∈ late, ∃ key, deed = .expire key
  /-- Runs that are due are taken up. -/
  takeUp : ∀ deed ∈ due, deed.due?.isSome
  /-- Runs that were split off get their first slice. -/
  serve : ∀ deed ∈ first, deed.served?.isSome
  /-- The tick begins with the deeds of the first two kinds. -/
  begins : Course engine (.advance :: (late ++ due)) middle
  /-- Then nothing is due any more. -/
  exhausted : middle.firstDue? = none
  /-- The tick ends with the deeds of the third kind. -/
  ends : Course middle first after

/-- A course of deeds is what an operation does. -/
structure Performs (engine : Engine σ ρ) (operation : Operation σ) (deeds : List (Deed σ ρ))
    (after : Engine σ ρ) : Prop where
  /-- The deeds can be done one after the other. -/
  course : Course engine deeds after
  /-- They are of the kinds that belong to the operation. -/
  belongs : ∀ deed ∈ deeds, deed.BelongsTo operation
  /-- Those of a tick come in the right order. -/
  tick : operation = .tick → ∃ late due first middle,
    deeds = .advance :: (late ++ due) ++ first ∧ TickCourse engine late due first middle after

/-- The deeds of a tick belong to it. -/
theorem TickCourse.performs {engine middle after : Engine σ ρ} {late due first : List (Deed σ ρ)}
    (h : TickCourse engine late due first middle after) :
    Performs engine .tick (.advance :: (late ++ due) ++ first) after := by
  refine ⟨h.begins.append h.ends, fun deed hm => ?_, fun _ => ⟨late, due, first, middle, rfl, h⟩⟩
  simp only [List.cons_append, List.mem_cons, List.mem_append] at hm
  rcases hm with rfl | (hm | hm) | hm
  · rfl
  · obtain ⟨key, rfl⟩ := h.expire deed hm
    rfl
  · have htakeUp := h.takeUp deed hm
    cases deed with
    | wake | discard => rfl
    | _ => cases htakeUp
  · have hserve := h.serve deed hm
    cases deed with
    | serve => exact .inr rfl
    | _ => cases hserve

/-- What deeds give in a row, they give one after the other. -/
theorem Course.gather_append {engine middle : Engine σ ρ} {deeds : List (Deed σ ρ)}
    (h : Course engine deeds middle) {α : Type} (what : Engine σ ρ → Deed σ ρ → Option α)
    (more : List (Deed σ ρ)) :
    engine.gather what (deeds ++ more) = engine.gather what deeds ++ middle.gather what more := by
  induction h with
  | done => rfl
  | next _ _ ih =>
    rw [List.cons_append, Engine.gather, Engine.gather, ih, List.append_assoc]

/-- Deeds that are done one after the other, with reports: those of the runs that end
in the deeds are handed out or added to the pending ones. -/
structure Engine.Tells (engine : Engine σ ρ) (deeds : List (Deed σ ρ)) (reports : List RunReport)
    (after : Engine σ ρ) : Prop where
  /-- The deeds can be done one after the other. -/
  course : Course engine deeds after
  /-- No report is lost and none is made up. -/
  reports : (reports ++ after.pending).Perm (engine.pending ++ engine.reported deeds)

/-- An engine gets from one state to another by deeds of some kind. -/
def Engine.Does (engine : Engine σ ρ) (kind : Deed σ ρ → Prop) (after : Engine σ ρ) : Prop :=
  ∃ deeds, Course engine deeds after ∧ ∀ deed ∈ deeds, kind deed

/-- An engine gets from one state to another by deeds of some kind that give the
reports. -/
def Engine.Yields (engine : Engine σ ρ) (kind : Deed σ ρ → Prop) (reports : List RunReport)
    (after : Engine σ ρ) : Prop :=
  ∃ deeds, engine.Tells deeds reports after ∧ ∀ deed ∈ deeds, kind deed

namespace Engine

namespace Tells

variable {engine middle after : Engine σ ρ} {deeds others : List (Deed σ ρ)}
  {reports more : List RunReport}

/-- Nothing is done. -/
theorem refl (engine : Engine σ ρ) : engine.Tells [] [] engine :=
  ⟨.done engine, .of_eq (List.append_nil _).symm⟩

/-- One deed that leaves the pending reports alone. -/
theorem single {deed : Deed σ ρ} (h : engine.Admits deed)
    (hp : (engine.carryOut deed).pending = engine.pending) :
    engine.Tells [deed] (engine.reportOf? deed).toList (engine.carryOut deed) := by
  refine ⟨.single h, ?_⟩
  rw [hp, reported, gather, gather, List.append_nil]
  exact List.perm_append_comm

/-- Deeds in a row give the reports of all. -/
theorem append (h₁ : engine.Tells deeds reports middle) (h₂ : middle.Tells others more after) :
    engine.Tells (deeds ++ others) (reports ++ more) after := by
  refine ⟨h₁.course.append h₂.course, ?_⟩
  rw [reported, h₁.course.gather_append, List.append_assoc]
  refine (h₂.reports.append_left reports).trans ?_
  rw [← List.append_assoc, ← List.append_assoc]
  exact h₁.reports.append_right _

/-- The last reports can be kept as pending ones. -/
theorem keep (h : engine.Tells deeds (reports ++ more) after) :
    engine.Tells (deeds ++ [.adjust after.around after.catalogue after.cache after.ids
      (after.pending ++ more)]) reports { after with pending := after.pending ++ more } := by
  have hadjust : after.Admits (.adjust after.around after.catalogue after.cache after.ids
      (after.pending ++ more)) := trivial
  refine ⟨h.course.append (.single hadjust), ?_⟩
  have hreported : engine.reported (deeds ++ [.adjust after.around after.catalogue after.cache
      after.ids (after.pending ++ more)]) = engine.reported deeds :=
    (h.course.gather_append reportOf? _).trans (List.append_nil _)
  rw [hreported]
  refine (List.perm_append_comm.append_left reports).trans ?_
  rw [← List.append_assoc]
  exact h.reports

end Tells

namespace Yields

variable {engine middle after : Engine σ ρ} {kind other : Deed σ ρ → Prop}
  {reports more : List RunReport}

/-- Whatever the reports are, something is done. -/
theorem does (h : engine.Yields kind reports after) : engine.Does kind after := by
  obtain ⟨deeds, htells, hkind⟩ := h
  exact ⟨deeds, htells.course, hkind⟩

/-- Nothing is done. -/
theorem refl (engine : Engine σ ρ) (kind : Deed σ ρ → Prop) : engine.Yields kind [] engine :=
  ⟨[], .refl engine, nofun⟩

/-- One deed is done that is about a run. -/
theorem single {deed : Deed σ ρ} (h : engine.Admits deed) (hk : kind deed)
    (ha : deed.key?.isSome) :
    engine.Yields kind (engine.reportOf? deed).toList (engine.carryOut deed) :=
  ⟨[deed], .single h (carryOut_pending engine ha), List.forall_mem_singleton.2 hk⟩

/-- One thing is done after the other. -/
theorem trans (h₁ : engine.Yields kind reports middle) (h₂ : middle.Yields kind more after) :
    engine.Yields kind (reports ++ more) after := by
  obtain ⟨deeds, hfirst, hkind⟩ := h₁
  obtain ⟨others, hsecond, hmore⟩ := h₂
  exact ⟨deeds ++ others, hfirst.append hsecond, List.forall_mem_append.2 ⟨hkind, hmore⟩⟩

/-- What deeds of a kind do is done by deeds of a wider one. -/
theorem mono (h : engine.Yields kind reports after) (hk : ∀ deed, kind deed → other deed) :
    engine.Yields other reports after := by
  obtain ⟨deeds, htells, hkind⟩ := h
  exact ⟨deeds, htells, fun deed hm => hk deed (hkind deed hm)⟩

end Yields

variable {engine after : Engine σ ρ} {fuel : Nat}

/-- When the tick moves on the pending reports are handed out. -/
theorem Tells.advance {deeds : List (Deed σ ρ)} {reports : List RunReport}
    (h : (engine.carryOut .advance).Tells deeds reports after) :
    engine.Tells (.advance :: deeds) (engine.pending ++ reports) after := by
  have hadvance : engine.Admits .advance := trivial
  refine ⟨.next hadvance h.course, ?_⟩
  rw [List.append_assoc]
  exact h.reports.append_left engine.pending

/-- Serving the queue. -/
theorem yields_drain {reports all : List RunReport}
    (h : engine.drain fuel reports = some (all, after)) :
    ∃ new, all = reports ++ new ∧ engine.Yields (fun deed => deed.served?.isSome) new after := by
  induction fuel generalizing engine reports with
  | zero =>
    unfold drain at h
    split at h
    · cases h
      exact ⟨[], (List.append_nil _).symm, .refl _ _⟩
    · cases h
  | succ fuel ih =>
    unfold drain at h
    split at h
    · cases h
      exact ⟨[], (List.append_nil _).symm, .refl _ _⟩
    · rename_i key rest hready
      have hserve : engine.Admits (.serve key) := by
        change engine.ready.head? = some key
        rw [hready]
        rfl
      have hone : engine.Yields (fun deed => deed.served?.isSome) _ _ :=
        .single hserve rfl rfl
      unfold reportOf? carryOut at hone
      rw [hready, List.tail_cons] at hone
      obtain ⟨new, rfl, hrest⟩ := ih h
      exact ⟨_, List.append_assoc .., hone.trans hrest⟩

/-- Serving the queue, whatever the reports are. -/
theorem does_drain {reports all : List RunReport}
    (h : engine.drain fuel reports = some (all, after)) :
    engine.Does (fun deed => deed.served?.isSome) after := by
  obtain ⟨new, -, hserved⟩ := yields_drain h
  exact hserved.does

/-- A run that ended is not taken up. -/
theorem takeUp_of_none {key : RunKey} (h : engine.runs.get? key = none) :
    engine.takeUp key = (none, engine) := by
  unfold takeUp
  rw [h]

/-- Taking up the runs that are due. -/
theorem yields_resumeDue {reports all : List RunReport}
    (h : engine.resumeDue fuel reports = some (all, after)) :
    ∃ new, all = reports ++ new ∧ engine.Yields (fun deed => deed.due?.isSome) new after ∧
      after.firstDue? = none := by
  induction fuel generalizing engine reports with
  | zero =>
    unfold resumeDue at h
    split at h
    · rename_i hnone
      cases h
      exact ⟨[], (List.append_nil _).symm, .refl _ _, Option.isNone_iff_eq_none.1 hnone⟩
    · cases h
  | succ fuel ih =>
    unfold resumeDue at h
    split at h
    · rename_i hnone
      cases h
      exact ⟨[], (List.append_nil _).symm, .refl _ _, hnone⟩
    · rename_i due key hfirst
      cases hk : engine.runs.get? key with
      | some run =>
        have hwake : engine.Admits (.wake due key) := ⟨hfirst, hk ▸ rfl⟩
        have hleft : resumeDue fuel (engine.carryOut (.wake due key))
            (reports ++ (engine.reportOf? (.wake due key)).toList) = some (all, after) := h
        obtain ⟨new, rfl, hrest, hnone⟩ := ih hleft
        exact ⟨_, List.append_assoc .., .trans (.single hwake rfl rfl) hrest, hnone⟩
      | none =>
        have hdiscard : engine.Admits (.discard due key) := ⟨hfirst, hk⟩
        have hgone : ({ engine with sleeping := engine.sleeping.erase due } :
            Engine σ ρ).takeUp key = (none, engine.carryOut (.discard due key)) :=
          takeUp_of_none hk
        rw [hgone] at h
        obtain ⟨new, rfl, hrest, hnone⟩ := ih h
        exact ⟨_, List.append_assoc .., .trans (.single hdiscard rfl rfl) hrest, hnone⟩

omit [RandomSource ρ] in
/-- A run that does not fail is not touched by looking at its deadlines. -/
theorem expire_eq {key : RunKey} (h : (engine.expire key).1 = none) :
    (engine.expire key).2 = engine := by
  unfold expire at h ⊢
  cases hk : engine.runs.get? key with
  | none => rfl
  | some run =>
    rw [hk] at h
    dsimp only at h ⊢
    split
    · rfl
    · rename_i error machine around heq
      rw [heq] at h
      dsimp only at h
      unfold finish at h
      have hput : (({ engine with around } : Engine σ ρ).unpark key
          { run with machine }).runs.get? key = some { run with machine, parked := false } :=
        (SlotMap.get?_set hk _ key).trans (if_pos rfl)
      rw [hput] at h
      cases h

/-- Failing the runs that are late. -/
theorem yields_expireAll (hr : engine.ready = []) (keys : List RunKey) :
    engine.Yields (fun deed => ∃ key, deed = .expire key) (engine.expireAll keys).1
      (engine.expireAll keys).2 := by
  induction keys generalizing engine with
  | nil => exact .refl engine _
  | cons key rest ih =>
    unfold expireAll
    dsimp only
    cases hreport : (engine.expire key).1 with
    | none =>
      rw [expire_eq hreport]
      exact ih hr
    | some report =>
      have hsome : (engine.expire key).1.isSome := hreport ▸ rfl
      have hexpire : engine.Admits (.expire key) := ⟨hsome, by simp [hr]⟩
      have hready : (engine.expire key).2.ready = [] := (dismissed_expire hsome).2.ready.trans hr
      rw [← hreport]
      exact .trans (.single hexpire ⟨key, rfl⟩ rfl) (ih hready)

/-- Cancelling runs. -/
theorem yields_cancelAll (hr : engine.ready = []) (reason : CancelReason) (keys : List RunKey)
    (ha : ∀ key ∈ keys, ∀ run, engine.runs.get? key = some run →
      ∀ actor, reason = .disconnected actor → run.actor = actor) :
    engine.Yields (fun deed => ∃ key ∈ keys, deed = .cancel key reason)
      (engine.cancelAll reason keys).1 (engine.cancelAll reason keys).2 := by
  induction keys generalizing engine with
  | nil => exact .refl engine _
  | cons key rest ih =>
    have hkept (other : RunKey) (hm : other ∈ rest) (run : Run)
        (ho : (engine.cancel key reason).2.runs.get? other = some run) :
        ∀ actor, reason = .disconnected actor → run.actor = actor :=
      ha other (List.mem_cons_of_mem _ hm) run (get?_of_cancel ho).2
    have hrest := ih ((cancel_ready engine key reason).trans hr) hkept
    have hothers : (engine.cancel key reason).2.Yields
        (fun deed => ∃ other ∈ key :: rest, deed = .cancel other reason) _ _ :=
      hrest.mono fun deed ⟨other, hm, hdeed⟩ => ⟨other, List.mem_cons_of_mem _ hm, hdeed⟩
    unfold cancelAll
    dsimp only
    cases hk : engine.runs.get? key with
    | none =>
      have hsame : engine.cancel key reason = (none, engine) := by
        unfold cancel
        rw [hk]
      rw [hsame] at hothers ⊢
      exact hothers
    | some run =>
      have hcancel : engine.Admits (.cancel key reason) :=
        ⟨by simp [hr], run, hk, ha key List.mem_cons_self run hk⟩
      exact .trans (.single hcancel ⟨key, List.mem_cons_self, rfl⟩ rfl) hothers

/-- A change of what runs share. -/
theorem yields_adjust {operation : Operation σ} (ho : operation ≠ .tick)
    (around : Surroundings σ ρ) (catalogue : Catalogue) (cache : ProgramCache) (ids : IdSource) :
    engine.Yields (·.Suits operation) [] { engine with around, catalogue, cache, ids } := by
  have hadjust : engine.Admits (.adjust around catalogue cache ids engine.pending) := trivial
  exact ⟨_, .single hadjust rfl, List.forall_mem_singleton.2 ⟨ho, nofun⟩⟩

/-- Starting a run begins with its launch, which gives the report. What follows is that
the queue is served, with reports that are kept as pending ones. -/
theorem yields_launch {operation : Operation σ} (ho : operation.isTrigger) {machine : Machine}
    {actor : Actor} {origin : Place} {execution : Execution}
    (h : engine.start fuel machine actor origin = some (execution, after)) :
    let launch : Deed σ ρ :=
      .launch (engine.spawn machine actor origin).1 machine actor origin
    execution.report? = engine.reportOf? launch ∧
      (engine.carryOut launch).Yields (·.Suits operation) [] after := by
  unfold start at h
  simp only [Option.bind_eq_bind, Option.bind_eq_some_iff, Option.pure_def, Option.some.injEq] at h
  obtain ⟨⟨forked, last⟩, hdrain, hend⟩ := h
  cases hend
  obtain ⟨_, rfl, deeds, htells, hserved⟩ := yields_drain hdrain
  refine ⟨?_, _, htells.keep, List.forall_mem_append.2 ⟨fun deed hm => ?_, ?_⟩⟩
  · dsimp only [reportOf?]
    cases ((engine.spawn machine actor origin).2.runSlice
      (engine.spawn machine actor origin).1).1 <;> rfl
  · have hserve := hserved deed hm
    cases deed with
    | serve => exact ⟨.inl ho, nofun⟩
    | _ => cases hserve
  · exact List.forall_mem_singleton.2 ⟨Operation.ne_tick ho, nofun⟩

/-- Starting a run begins with its launch. -/
theorem exists_launch {operation : Operation σ} (ho : operation.isTrigger) {machine : Machine}
    {actor : Actor} {origin : Place} {execution : Execution}
    (h : engine.start fuel machine actor origin = some (execution, after)) :
    ∃ rest, Course engine
        (.launch (engine.spawn machine actor origin).1 machine actor origin :: rest) after ∧
      ∀ deed ∈ rest, deed.BelongsTo operation := by
  obtain ⟨rest, hcourse, hsuits⟩ := (yields_launch ho h).2.does
  exact ⟨rest, .next rfl hcourse, fun deed hm => (hsuits deed hm).belongs⟩

/-- Starting a run at an entry. -/
theorem yields_start {operation : Operation σ} (ho : operation.isTrigger) {machine : Machine}
    {actor : Actor} {origin : Place} {execution : Execution} (hb : machine.AtEntry)
    (h : engine.start fuel machine actor origin = some (execution, after)) :
    engine.Yields (·.Suits operation) execution.report?.toList after := by
  obtain ⟨hreport, hrest⟩ := yields_launch ho h
  have hlaunch : engine.Admits
      (.launch (engine.spawn machine actor origin).1 machine actor origin) := rfl
  have hsuits : (Deed.launch (engine.spawn machine actor origin).1 machine actor origin :
      Deed σ ρ).Suits operation := by
    refine ⟨ho, fun _ _ _ _ heq => ?_⟩
    cases heq
    exact hb
  rw [hreport, ← List.append_nil (Option.toList _)]
  exact .trans (.single hlaunch hsuits rfl) hrest

/-- Taking up compiled programs. -/
theorem yields_accept {α : Type} {operation : Operation σ} (ho : operation ≠ .tick)
    (served : Served α) : engine.Yields (·.Suits operation) [] (engine.accept served) := by
  obtain ⟨notices, haccept⟩ := engine.accept_eq served
  rw [haccept]
  exact yields_adjust ho ..

/-- Running several programs. -/
theorem yields_executeAll {operation : Operation σ} (ho : operation.isTrigger) {actor : Actor}
    {programs : List Program} {executions : List Execution}
    (h : engine.executeAll fuel actor programs = some (executions, after)) :
    engine.Yields (·.Suits operation) (executions.filterMap Execution.report?) after := by
  induction programs generalizing engine executions with
  | nil =>
    cases h
    exact .refl _ _
  | cons program rest ih =>
    unfold executeAll at h
    simp only [Option.bind_eq_bind, Option.bind_eq_some_iff, Option.pure_def, Option.some.injEq]
      at h
    obtain ⟨⟨execution, next⟩, hfirst, ⟨more, last⟩, hrest, hend⟩ := h
    cases hend
    rw [Execution.filterMap_cons]
    exact .trans (yields_start ho (.program _ _) hfirst) (ih hrest)

/-- Running a function. -/
theorem yields_callFunction {operation : Operation σ} (ho : operation.isTrigger) {name : String}
    {actor : Actor} {origin : Place} {args : ArrivalMap String Value}
    {result : Except RunError Execution}
    (h : engine.callFunction fuel name actor origin args = some (result, after)) :
    engine.Yields (·.Suits operation) (result.toOption.bind Execution.report?).toList after := by
  have hne := Operation.ne_tick ho
  unfold callFunction at h
  split at h
  · cases h
    exact .refl _ _
  · split at h
    · cases h
      exact yields_adjust hne ..
    · split at h
      · cases h
        exact yields_adjust hne ..
      · simp only [Option.bind_eq_bind, Option.bind_eq_some_iff, Option.pure_def,
          Option.some.injEq] at h
        obtain ⟨⟨execution, last⟩, hstart, hend⟩ := h
        cases hend
        exact .trans (yields_adjust hne ..) (yields_start ho (.call _ _) hstart)

/-- Registering a compiled function. -/
theorem yields_registerCompiled {operation : Operation σ} (ho : operation ≠ .tick)
    (program : Program) (owner : Actor) (scope : FunctionScope) (replace : Bool) :
    engine.Yields (·.Suits operation) []
      (engine.registerCompiled program owner scope replace).2 := by
  unfold registerCompiled
  split
  · exact .refl _ _
  · dsimp only
    split
    · exact yields_adjust ho ..
    · exact yields_adjust ho ..

/-- Registering compiled functions. -/
theorem yields_registerPrograms {operation : Operation σ} (ho : operation ≠ .tick) (owner : Actor)
    (scope : FunctionScope) (replace : Bool) (programs : List Program) :
    engine.Yields (·.Suits operation) []
      (engine.registerPrograms owner scope replace programs).2 := by
  induction programs generalizing engine with
  | nil => exact .refl _ _
  | cons program rest ih => exact .trans (yields_registerCompiled ho ..) ih

/-- A tick goes as it should. -/
theorem exists_tickCourse (hr : engine.ready = []) {reports : List RunReport}
    (h : engine.nextTick fuel = some (reports, after)) :
    ∃ late due first middle, TickCourse engine late due first middle after ∧
      engine.Tells (.advance :: (late ++ due) ++ first) reports after := by
  unfold nextTick at h
  simp only [Option.bind_eq_bind, Option.bind_eq_some_iff] at h
  obtain ⟨⟨woken, middle⟩, hresume, hdrain⟩ := h
  have hadvance : engine.Admits .advance := trivial
  have hready : (engine.carryOut .advance).ready = [] := hr
  obtain ⟨late, hlate, hexpire⟩ := yields_expireAll hready
    ((engine.carryOut .advance).runs.keysWhere (·.parked))
  obtain ⟨taken, rfl, ⟨due, hdue, htakeUp⟩, hnone⟩ := yields_resumeDue hresume
  obtain ⟨served, rfl, first, hfirst, hserve⟩ := yields_drain hdrain
  refine ⟨late, due, first, middle, ⟨hexpire, htakeUp, hserve,
    .next hadvance (hlate.append hdue).course, hnone, hfirst.course⟩, ?_⟩
  rw [List.append_assoc, List.append_assoc, ← List.append_assoc _ taken]
  exact ((hlate.append hdue).append hfirst).advance

/-- Stopping all runs. -/
theorem yields_shutdown (hr : engine.ready = []) :
    engine.Yields (·.BelongsTo .shutdown) engine.shutdown.1 engine.shutdown.2 := by
  have hforget : (engine.cancelAll .shutdown (engine.runs.keysWhere fun _ => true)).2.Admits
      (.forget : Deed σ ρ) := engine.get?_shutdown
  have hbelongs (deed : Deed σ ρ) (hdeed : ∃ key ∈ engine.runs.keysWhere fun _ => true,
      deed = .cancel key .shutdown) : deed.BelongsTo .shutdown := by
    obtain ⟨key, -, rfl⟩ := hdeed
    exact .inr (.inr ⟨rfl, rfl⟩)
  rw [← List.append_nil engine.shutdown.1]
  exact .trans (.mono (yields_cancelAll hr .shutdown _ fun _ _ _ _ _ => nofun) hbelongs)
    ⟨_, .single hforget rfl, List.forall_mem_singleton.2 rfl⟩

/-- Stopping the runs of an actor. -/
theorem yields_disconnect (hr : engine.ready = []) (actor : Actor) :
    engine.Yields (·.BelongsTo (.disconnect actor)) (engine.disconnect actor).1
      (engine.disconnect actor).2 := by
  refine .mono (yields_cancelAll hr (.disconnected actor) _ fun key hm run hk other heq => ?_) ?_
  · obtain ⟨found, hf, hactor⟩ := SlotMap.mem_keysWhere.1 hm
    cases hk.symm.trans hf
    cases heq
    exact beq_iff_eq.1 hactor
  · rintro deed ⟨key, -, rfl⟩
    exact .inr (.inl ⟨actor, rfl, rfl⟩)

/-- Stopping a run. -/
theorem yields_stop (hr : engine.ready = []) (key : RunKey) :
    engine.Yields (·.BelongsTo (.stop key)) (engine.stop key).1.toList (engine.stop key).2 := by
  rw [← List.append_nil (Option.toList _)]
  refine .mono (yields_cancelAll hr .stopped [key] fun _ _ _ _ _ => nofun) ?_
  rintro deed ⟨other, hm, rfl⟩
  exact .inl ⟨congrArg _ (List.mem_singleton.1 hm).symm, rfl⟩

/-- Every operation but a tick is done by deeds that belong to it. -/
theorem yields_perform (hr : engine.ready = []) {operation : Operation σ} (ho : operation ≠ .tick)
    {reports : List RunReport} (h : engine.perform fuel operation = some (reports, after)) :
    engine.Yields (·.Suits operation) reports after := by
  cases operation with
  | execute program actor origin =>
    simp only [perform, Option.bind_eq_bind, Option.bind_eq_some_iff] at h
    obtain ⟨⟨execution, last⟩, hexecute, hend⟩ := h
    cases hend
    exact yields_start rfl (.program _ _) hexecute
  | call name actor origin args =>
    simp only [perform, Option.bind_eq_bind, Option.bind_eq_some_iff] at h
    obtain ⟨⟨result, last⟩, hcall, hend⟩ := h
    cases hend
    exact yields_callFunction rfl hcall
  | fireLine world entry actor =>
    simp only [perform, Option.bind_eq_bind, Option.bind_eq_some_iff] at h
    obtain ⟨⟨result, last⟩, hfire, hend⟩ := h
    cases hend
    obtain ⟨served, ⟨hnone, rfl⟩ | ⟨program, execution, rfl, hexecute⟩⟩ := fireLine_cases hfire
    · rw [hnone]
      exact yields_accept ho served
    · exact .trans (yields_accept ho served) (yields_start rfl (.program _ _) hexecute)
  | fireEvent world region event actor =>
    simp only [perform, Option.bind_eq_bind, Option.bind_eq_some_iff] at h
    obtain ⟨⟨executions, last⟩, hfire, hend⟩ := h
    cases hend
    exact .trans (yields_accept ho _) (yields_executeAll rfl hfire)
  | tick => exact absurd rfl ho
  | stop key =>
    cases h
    exact (yields_stop hr key).mono fun _ h => ⟨h, h.fromEntry rfl⟩
  | disconnect actor =>
    obtain ⟨rfl, rfl⟩ := Prod.ext_iff.1 (Option.some.inj h)
    exact (yields_disconnect hr actor).mono fun _ h => ⟨h, h.fromEntry rfl⟩
  | shutdown =>
    cases h
    exact (yields_shutdown hr).mono fun _ h => ⟨h, h.fromEntry rfl⟩
  | register definition replace =>
    simp only [perform] at h
    split at h
    · cases h
      exact yields_adjust ho ..
    · cases h
      exact .refl _ _
  | registerCompiled program owner scope replace =>
    cases h
    exact yields_registerCompiled ho program owner scope replace
  | registerRegion world region owner scope replace =>
    cases h
    exact .trans (yields_accept ho _) (yields_registerPrograms ho owner scope replace _)
  | unregister | restore | clear | host =>
    cases h
    exact yields_adjust ho ..
  | reloadCatalogue other =>
    obtain ⟨catalogue, cache, hreload⟩ := engine.exists_reloadCatalogue other
    simp only [perform, hreload] at h
    cases h
    exact yields_adjust ho ..

/-- Every operation that comes to an end is a course of deeds that belong to it, in which runs
are started at entries only, and the reports are those that the deeds give. -/
theorem exists_tells (hr : engine.ready = []) {operation : Operation σ}
    {reports : List RunReport} (h : engine.perform fuel operation = some (reports, after)) :
    ∃ deeds, Performs engine operation deeds after ∧ engine.Tells deeds reports after ∧
      ∀ deed ∈ deeds, deed.FromEntry := by
  by_cases ho : operation = .tick
  · subst ho
    obtain ⟨late, due, first, middle, htick, htells⟩ := exists_tickCourse hr h
    exact ⟨_, htick.performs, htells, fun deed hm => (htick.performs.belongs deed hm).fromEntry rfl⟩
  · obtain ⟨deeds, htells, hsuits⟩ := yields_perform hr ho h
    exact ⟨deeds, ⟨htells.course, fun deed hm => (hsuits deed hm).belongs,
      fun heq => absurd heq ho⟩, htells, fun deed hm => (hsuits deed hm).fromEntry⟩

/-- Every operation that comes to an end is a course of deeds that belong to it. -/
theorem exists_performs (hr : engine.ready = []) {operation : Operation σ}
    {reports : List RunReport} (h : engine.perform fuel operation = some (reports, after)) :
    ∃ deeds, Performs engine operation deeds after := by
  obtain ⟨deeds, hperforms, -⟩ := exists_tells hr h
  exact ⟨deeds, hperforms⟩

end Engine

/-- An engine that some operations led to, with the engine it began as and all deeds
that were done. -/
inductive Timeline : Engine σ ρ → List (Deed σ ρ) → Engine σ ρ → Prop where
  /-- An engine without runs and a ledger with nothing in use. -/
  | initial (host : σ) (random : ρ) (settings : Settings) (catalogue : Catalogue)
    (layout : Layout) :
    Timeline (Engine.initial host random (Ledger.initial settings) catalogue layout) []
      (Engine.initial host random (Ledger.initial settings) catalogue layout)
  /-- One more operation that came to an end. -/
  | step {start engine after : Engine σ ρ} {deeds more : List (Deed σ ρ)} {fuel : Nat}
    {operation : Operation σ} {reports : List RunReport} (past : Timeline start deeds engine)
    (performed : engine.perform fuel operation = some (reports, after))
    (performs : Performs engine operation more after) : Timeline start (deeds ++ more) after

namespace Timeline

variable {start engine : Engine σ ρ} {deeds : List (Deed σ ρ)}

/-- A timeline is that of a history. -/
theorem history (h : Timeline start deeds engine) : ∃ returned, History engine returned := by
  induction h with
  | initial host random settings catalogue layout => exact ⟨[], .initial ..⟩
  | step past performed performs ih =>
    obtain ⟨returned, hpast⟩ := ih
    exact ⟨_, hpast.step performed⟩

/-- Nothing is in the queue between operations. -/
theorem ready (h : Timeline start deeds engine) : engine.ready = [] := by
  obtain ⟨returned, hhistory⟩ := h.history
  exact hhistory.settled.2.1

/-- A timeline begins with an engine that is in order. -/
theorem begins (h : Timeline start deeds engine) :
    start.InOrder [] ∧ start.actions = .standard ∧ start.sequence = 0 := by
  induction h with
  | initial host random settings catalogue layout =>
    exact ⟨⟨SlotMap.tidy_empty, .initial, nofun, fun _ => Scheduled.of_none fun _ => rfl⟩, rfl,
      rfl⟩
  | step past performed performs ih => exact ih

/-- A timeline is a course of deeds. -/
theorem course (h : Timeline start deeds engine) : Course start deeds engine := by
  induction h with
  | initial => exact .done _
  | step past performed performs ih => exact ih.append performs.course

end Timeline

/-- Every history has a timeline whose deeds give the reports that were handed out or
are pending. -/
theorem History.exists_reported {engine : Engine σ ρ} {returned : List RunReport}
    (h : History engine returned) : ∃ start deeds, Timeline start deeds engine ∧
      (returned ++ engine.pending).Perm (start.reported deeds) := by
  have htold : ∃ start deeds, Timeline start deeds engine ∧ start.pending = [] ∧
      start.Tells deeds returned engine := by
    induction h with
    | initial host random settings catalogue layout => exact ⟨_, [], .initial .., rfl, .refl _⟩
    | step past performed ih =>
      obtain ⟨start, deeds, htimeline, hnone, htells⟩ := ih
      obtain ⟨more, hperforms, hmore, -⟩ := Engine.exists_tells past.settled.2.1 performed
      exact ⟨start, deeds ++ more, htimeline.step performed hperforms, hnone, htells.append hmore⟩
  obtain ⟨start, deeds, htimeline, hnone, htells⟩ := htold
  have hreports := htells.reports
  rw [hnone] at hreports
  exact ⟨start, deeds, htimeline, hreports⟩

/-- Every history has a timeline. -/
theorem History.exists_timeline {engine : Engine σ ρ} {returned : List RunReport}
    (h : History engine returned) : ∃ start deeds, Timeline start deeds engine := by
  obtain ⟨start, deeds, htimeline, -⟩ := h.exists_reported
  exact ⟨start, deeds, htimeline⟩

end GridScript
