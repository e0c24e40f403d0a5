import GridScript.Proofs.Counts

/-!
# Entries without a count

The numbers kept for actors are entries of a map, and an entry should be there only as long as
its number is positive. Claims make the entry before they look at their limit. A refusal because
the limit is reached leaves the entry, which does no harm where the limit is positive, since then
the number that reached it is; under a limit of zero it leaves an entry that stands at zero. What
the maps hold is therefore told by two things for each actor: what is held, and whether the latest
answer was a refusal under a limit of zero.
-/

namespace GridScript

/-- What happens to the numbers kept for actors. -/
inductive AccountEvent where
  /-- A claim is granted. -/
  | granted (actor : Actor)
  /-- A claim is refused because its limit is reached. -/
  | refused (actor : Actor) (limit : Nat)
  /-- A claim below its limit is refused for another reason. -/
  | declined (actor : Actor)
  /-- A claim is given back. -/
  | released (actor : Actor)

namespace AccountLog

/-- How many claims of an actor were granted and not given back. The latest event is the first
one of the log. -/
def held (actor : Actor) : List AccountEvent → Nat
  | [] => 0
  | .granted other :: earlier => held actor earlier + if actor = other then 1 else 0
  | .released other :: earlier => held actor earlier - if actor = other then 1 else 0
  | .refused _ _ :: earlier | .declined _ :: earlier => held actor earlier

/-- Whether the latest event of an actor is a refusal under a limit of zero. -/
def shut (actor : Actor) : List AccountEvent → Bool
  | [] => false
  | .refused other limit :: earlier => if actor = other then limit = 0 else shut actor earlier
  | .granted other :: earlier | .declined other :: earlier | .released other :: earlier =>
    if actor = other then false else shut actor earlier

/-- Without a refusal under a limit of zero nobody is shut out. -/
theorem shut_eq_false {actor : Actor} {log : List AccountEvent}
    (h : ∀ other, .refused other 0 ∉ log) : shut actor log = false := by
  induction log with
  | nil => rfl
  | cons event earlier ih =>
    have hearlier := ih fun other hm => h other (List.mem_cons_of_mem _ hm)
    cases event with
    | granted | declined | released =>
      unfold shut
      split_ifs
      · rfl
      · exact hearlier
    | refused other limit =>
      unfold shut
      split_ifs
      · exact decide_eq_false fun hzero => h other (hzero ▸ List.mem_cons_self)
      · exact hearlier

end AccountLog

namespace ActorCounts

/-- Whether an actor has an entry that stands at zero. -/
def Idle (counts : ActorCounts) (actor : Actor) : Prop :=
  counts.get? actor = some 0

/-- An entry tells no more than the number of the actor, except when it stands at zero. -/
theorem get?_eq_count (counts : ActorCounts) (actor : Actor) :
    counts.get? actor = some (counts.count actor) ∧
        (0 < counts.count actor ∨ counts.Idle actor) ∨
      counts.get? actor = none ∧ counts.count actor = 0 ∧ ¬ counts.Idle actor := by
  unfold Idle count
  cases h : counts.get? actor with
  | none => exact .inr ⟨rfl, rfl, nofun⟩
  | some number =>
    refine .inl ⟨rfl, ?_⟩
    cases number with
    | zero => exact .inr rfl
    | succ number => exact .inl (Nat.succ_pos number)

/-- Adding one leaves no entry of that actor at zero. -/
theorem idle_add (counts : ActorCounts) (actor other : Actor) :
    (counts.add actor).Idle other ↔ other ≠ actor ∧ counts.Idle other := by
  by_cases h : other = actor <;> simp [Idle, add, SortedMap.get?_insert, h]

/-- Making an entry leaves it at zero if that is the number. -/
theorem idle_touch (counts : ActorCounts) (actor other : Actor) :
    (counts.touch actor).Idle other ↔
      if other = actor then counts.count actor = 0 else counts.Idle other := by
  by_cases h : other = actor <;> simp [Idle, touch, SortedMap.get?_insert, h]

/-- Giving one back leaves no entry of that actor at zero. -/
theorem idle_remove (counts : ActorCounts) (actor other : Actor) :
    (counts.remove actor).Idle other ↔ other ≠ actor ∧ counts.Idle other := by
  unfold Idle remove
  by_cases h : other = actor
  · subst h
    split
    · rename_i hnone
      simp [hnone]
    · split
      · simp [SortedMap.get?_erase]
      · rename_i hgreater
        have hleft : ∀ number : Nat, ¬ number ≤ 1 → number - 1 ≠ 0 := by omega
        simp [SortedMap.get?_insert, hleft _ hgreater]
  · split
    · simp [h]
    · split <;> simp [SortedMap.get?_erase, SortedMap.get?_insert, h]

/-- Pruning leaves no entry of that actor at zero. -/
theorem idle_prune (counts : ActorCounts) (actor other : Actor) :
    (counts.prune actor).Idle other ↔ other ≠ actor ∧ counts.Idle other := by
  unfold Idle prune
  by_cases h : other = actor
  · subst h
    split
    · simp [SortedMap.get?_erase]
    · rename_i hbusy
      simp [hbusy]
  · split <;> simp [SortedMap.get?_erase, h]

/-- The numbers kept for actors and all that happened to them, latest first. -/
inductive Account : ActorCounts → List AccountEvent → Prop where
  /-- To begin with there are no entries. -/
  | empty : Account .empty []
  /-- A granted claim adds one. -/
  | granted {counts : ActorCounts} {log : List AccountEvent} (h : Account counts log)
    (actor : Actor) : Account (counts.add actor) (.granted actor :: log)
  /-- A claim that finds its limit reached leaves an entry. -/
  | refused {counts : ActorCounts} {log : List AccountEvent} (h : Account counts log)
    {actor : Actor} {limit : Nat} (hlimit : limit ≤ counts.count actor) :
    Account (counts.touch actor) (.refused actor limit :: log)
  /-- A claim that is refused for another reason prunes the entry. -/
  | declined {counts : ActorCounts} {log : List AccountEvent} (h : Account counts log)
    (actor : Actor) : Account (counts.prune actor) (.declined actor :: log)
  /-- A claim given back takes one away. -/
  | released {counts : ActorCounts} {log : List AccountEvent} (h : Account counts log)
    (actor : Actor) : Account (counts.remove actor) (.released actor :: log)

namespace Account

open AccountLog

variable {counts : ActorCounts} {log : List AccountEvent}

/-- The number of an actor is what the actor holds. -/
theorem count_eq_held (h : Account counts log) (actor : Actor) :
    counts.count actor = held actor log := by
  induction h with
  | empty => rfl
  | granted _ other ih => rw [count_add, held, ih]
  | refused _ _ ih => rw [count_touch, held, ih]
  | declined _ _ ih => rw [count_prune, held, ih]
  | released _ other ih => rw [count_remove, held, ih]

/-- An entry stands at zero exactly if nothing is held and the latest answer was a refusal under
a limit of zero. -/
theorem idle_iff (h : Account counts log) (actor : Actor) :
    counts.Idle actor ↔ held actor log = 0 ∧ shut actor log = true := by
  induction h with
  | empty => exact ⟨nofun, nofun⟩
  | granted _ other ih =>
    rw [idle_add, ih, held, shut]
    by_cases hsame : actor = other <;> simp [hsame]
  | @refused before _ hbefore other limit hlimit ih =>
    rw [idle_touch, held, shut]
    by_cases hsame : actor = other
    · subst hsame
      rw [hbefore.count_eq_held] at hlimit
      rw [if_pos rfl, if_pos rfl, hbefore.count_eq_held, decide_eq_true_iff]
      omega
    · rw [if_neg hsame, if_neg hsame, ih]
  | declined _ other ih =>
    rw [idle_prune, ih, held, shut]
    by_cases hsame : actor = other <;> simp [hsame]
  | released _ other ih =>
    rw [idle_remove, ih, held, shut]
    by_cases hsame : actor = other <;> simp [hsame]

/-- What a map holds for an actor, told by the log alone. -/
theorem get?_eq (h : Account counts log) (actor : Actor) :
    counts.get? actor =
      if held actor log = 0 ∧ shut actor log = false then none else some (held actor log) := by
  have hidle := h.idle_iff actor
  have hcount := h.count_eq_held actor
  rcases get?_eq_count counts actor with
    ⟨hget, hbusy⟩ | ⟨hget, hzero, hnone⟩
  · rw [hget, hcount, if_neg]
    rintro ⟨hheld, hopen⟩
    rcases hbusy with hpositive | hzero
    · omega
    · exact absurd (hidle.1 hzero).2 (by simp [hopen])
  · rw [hcount] at hzero
    have hopen : shut actor log = false :=
      Bool.eq_false_iff.2 fun hshut => hnone (hidle.2 ⟨hzero, hshut⟩)
    rw [hget, if_pos ⟨hzero, hopen⟩]

end Account

/-- What the numbers kept for actors come to, told by all that happened to them. -/
structure Tells (counts : ActorCounts) (log : List AccountEvent) : Prop where
  /-- An actor who holds something has an entry with the number of that. Who holds nothing has an
  entry only after a refusal under a limit of zero. -/
  entry : ∀ actor, counts.get? actor =
    if AccountLog.held actor log = 0 ∧ AccountLog.shut actor log = false then none
    else some (AccountLog.held actor log)
  /-- All entries are positive exactly if such a refusal meets only actors who hold something. -/
  positive : (∀ entry ∈ counts.entries, 0 < entry.2) ↔
    ∀ actor, AccountLog.shut actor log = true → 0 < AccountLog.held actor log
  /-- There are no entries exactly if everything was given back and no such refusal is left. -/
  empty : counts = .empty ↔
    ∀ actor, AccountLog.held actor log = 0 ∧ AccountLog.shut actor log = false

/-- An account tells what happened to it. -/
theorem Account.tells {counts : ActorCounts} {log : List AccountEvent} (h : Account counts log) :
    counts.Tells log where
  entry := h.get?_eq
  positive := by
    refine ⟨fun hpositive actor hshut => Nat.pos_of_ne_zero fun hzero => ?_,
      fun hheld entry hm => Nat.pos_of_ne_zero fun hzero => ?_⟩
    · have hidle : counts.get? actor = some 0 := (h.idle_iff actor).2 ⟨hzero, hshut⟩
      exact absurd (hpositive _ (SortedMap.get?_eq_some_iff.1 hidle)) (Nat.lt_irrefl 0)
    · obtain ⟨actor, number⟩ := entry
      obtain rfl : number = 0 := hzero
      obtain ⟨hnone, hshut⟩ := (h.idle_iff actor).1 (SortedMap.get?_eq_some_iff.2 hm)
      exact absurd (hheld actor hshut) (by omega)
  empty := by
    constructor
    · rintro rfl actor
      have hget := h.get?_eq actor
      by_contra hentry
      rw [if_neg hentry] at hget
      cases hget
    · intro hgone
      refine SortedMap.eq_of_get? fun actor => ?_
      rw [h.get?_eq, if_pos (hgone actor)]
      rfl

/-- Whether the numbers kept for actors leave nothing behind: entries are positive, and there are
none once everything was given back. -/
def Clean (counts : ActorCounts) (log : List AccountEvent) : Prop :=
  (∀ entry ∈ counts.entries, 0 < entry.2) ∧
    (counts = .empty ↔ ∀ actor, AccountLog.held actor log = 0)

/-- Nothing is left behind where no limit is zero. -/
theorem Account.clean {counts : ActorCounts} {log : List AccountEvent} (h : Account counts log)
    (hlimits : ∀ actor, .refused actor 0 ∉ log) : counts.Clean log := by
  have hopen : ∀ actor, AccountLog.shut actor log = false :=
    fun actor => AccountLog.shut_eq_false hlimits
  refine ⟨h.tells.positive.2 fun actor hshut => absurd hshut (by simp [hopen]), ?_⟩
  simp [h.tells.empty, hopen]

end ActorCounts

/-- A request to the accounts of a ledger. -/
inductive LedgerRequest where
  /-- A suspension is claimed. -/
  | suspend (actor : Actor)
  /-- A suspension is given back. -/
  | resume (actor : Actor)
  /-- A call is claimed. -/
  | enterCall (actor : Actor) (maxDepth : Nat) (function : String)
  /-- A call is given back. -/
  | leaveCall (actor : Actor)

namespace Ledger

/-- The ledger after a request. -/
def serve (ledger : Ledger) : LedgerRequest → Ledger
  | .suspend actor => (ledger.suspend actor).2
  | .resume actor => ledger.resume actor
  | .enterCall actor maxDepth function => (ledger.enterCall actor maxDepth function).2
  | .leaveCall actor => ledger.leaveCall actor

/-- The ledger after several requests, the latest of which is the first. -/
def after (settings : Settings) (requests : List LedgerRequest) : Ledger :=
  requests.foldr (fun request ledger => ledger.serve request) (initial settings)

/-- What a request comes to for the numbers of calls, by its answer. -/
def callEvent? (ledger : Ledger) : LedgerRequest → Option AccountEvent
  | .enterCall actor maxDepth function =>
    match (ledger.enterCall actor maxDepth function).1 with
    | .ok () => some (.granted actor)
    | .error (.callDepth _ limit) => some (.refused actor limit)
    | .error _ => some (.declined actor)
  | .leaveCall actor => some (.released actor)
  | _ => none

/-- What a request comes to for the numbers of suspensions, by its answer. -/
def suspensionEvent? (ledger : Ledger) : LedgerRequest → Option AccountEvent
  | .suspend actor =>
    match (ledger.suspend actor).1 with
    | .ok () => some (.granted actor)
    | .error (.suspensions _ limit) => some (.refused actor limit)
    | .error _ => some (.declined actor)
  | .resume actor => some (.released actor)
  | _ => none

/-- What several requests came to, where each found the ledger that the earlier ones left. -/
def logOf (settings : Settings) (event? : Ledger → LedgerRequest → Option AccountEvent) :
    List LedgerRequest → List AccountEvent
  | [] => []
  | request :: earlier =>
    (event? (after settings earlier) request).toList ++ logOf settings event? earlier

/-- A call is refused for its depth, refused because too many calls are active, or granted. -/
theorem enterCall_cases (ledger : Ledger) (actor : Actor) (maxDepth : Nat) (function : String) :
    (maxDepth ≤ ledger.callDepth actor ∧ ledger.enterCall actor maxDepth function =
      (.error (.callDepth function maxDepth),
        { ledger with depths := ledger.depths.touch actor })) ∨
    (∃ limit, ledger.enterCall actor maxDepth function =
      (.error (.concurrency limit), { ledger with depths := ledger.depths.prune actor })) ∨
    ledger.enterCall actor maxDepth function =
      (.ok (), { ledger with
        activeCalls := ledger.activeCalls + 1
        depths := ledger.depths.add actor }) := by
  unfold enterCall
  dsimp only
  split
  · rename_i hdeep
    exact .inl ⟨hdeep, rfl⟩
  · split
    · exact .inr (.inl ⟨_, rfl⟩)
    · exact .inr (.inr rfl)

/-- A suspension is refused because the limit is reached, or granted. -/
theorem suspend_cases (ledger : Ledger) (actor : Actor) :
    (ledger.settings.maxSuspensionsPerActor ≤ ledger.suspensionCount actor ∧
      ledger.suspend actor =
        (.error (.suspensions actor ledger.settings.maxSuspensionsPerActor),
          { ledger with suspensions := ledger.suspensions.touch actor })) ∨
    ledger.suspend actor =
      (.ok (), { ledger with suspensions := ledger.suspensions.add actor }) := by
  unfold suspend
  dsimp only
  split
  · rename_i hfull
    exact .inl ⟨hfull, rfl⟩
  · exact .inr rfl

/-- A request does to the numbers of calls what its answer says. -/
theorem account_depths_serve {ledger : Ledger} {log : List AccountEvent}
    (h : ledger.depths.Account log) (request : LedgerRequest) :
    (ledger.serve request).depths.Account ((ledger.callEvent? request).toList ++ log) := by
  cases request with
  | resume => exact h
  | leaveCall actor => exact h.released actor
  | suspend actor =>
    rw [serve]
    rcases ledger.suspend_cases actor with ⟨-, hanswer⟩ | hanswer <;> rw [hanswer] <;> exact h
  | enterCall actor maxDepth function =>
    rw [serve, callEvent?]
    rcases ledger.enterCall_cases actor maxDepth function with
      ⟨hdeep, hanswer⟩ | ⟨limit, hanswer⟩ | hanswer <;> rw [hanswer]
    · exact h.refused hdeep
    · exact h.declined actor
    · exact h.granted actor

/-- A request does to the numbers of suspensions what its answer says. -/
theorem account_suspensions_serve {ledger : Ledger} {log : List AccountEvent}
    (h : ledger.suspensions.Account log) (request : LedgerRequest) :
    (ledger.serve request).suspensions.Account
      ((ledger.suspensionEvent? request).toList ++ log) := by
  cases request with
  | leaveCall => exact h
  | resume actor => exact h.released actor
  | suspend actor =>
    rw [serve, suspensionEvent?]
    rcases ledger.suspend_cases actor with ⟨hfull, hanswer⟩ | hanswer <;> rw [hanswer]
    · exact h.refused hfull
    · exact h.granted actor
  | enterCall actor maxDepth function =>
    rw [serve]
    rcases ledger.enterCall_cases actor maxDepth function with
      ⟨-, hanswer⟩ | ⟨limit, hanswer⟩ | hanswer <;> rw [hanswer] <;> exact h

/-- A request leaves the limits as they are. -/
@[simp] theorem settings_serve (ledger : Ledger) (request : LedgerRequest) :
    (ledger.serve request).settings = ledger.settings := by
  cases request with
  | resume | leaveCall => rfl
  | suspend actor =>
    rw [serve]
    rcases ledger.suspend_cases actor with ⟨-, hanswer⟩ | hanswer <;> rw [hanswer]
  | enterCall actor maxDepth function =>
    rw [serve]
    rcases ledger.enterCall_cases actor maxDepth function with
      ⟨-, hanswer⟩ | ⟨limit, hanswer⟩ | hanswer <;> rw [hanswer]

/-- The numbers of calls follow the answers. -/
theorem account_depths (settings : Settings) (requests : List LedgerRequest) :
    (after settings requests).depths.Account (logOf settings callEvent? requests) := by
  induction requests with
  | nil => exact .empty
  | cons request earlier ih => exact account_depths_serve ih request

/-- The numbers of suspensions follow the answers. -/
theorem account_suspensions (settings : Settings) (requests : List LedgerRequest) :
    (after settings requests).suspensions.Account (logOf settings suspensionEvent? requests) := by
  induction requests with
  | nil => exact .empty
  | cons request earlier ih => exact account_suspensions_serve ih request

/-- The limits stay as they are. -/
@[simp] theorem settings_after (settings : Settings) (requests : List LedgerRequest) :
    (after settings requests).settings = settings := by
  induction requests with
  | nil => rfl
  | cons request earlier ih => exact (settings_serve _ request).trans ih

/-- What is in the log came of one of the requests. -/
theorem exists_of_mem_logOf {settings : Settings}
    {event? : Ledger → LedgerRequest → Option AccountEvent} {requests : List LedgerRequest}
    {event : AccountEvent} (h : event ∈ logOf settings event? requests) :
    ∃ request ∈ requests, ∃ earlier, event? (after settings earlier) request = some event := by
  induction requests with
  | nil => cases h
  | cons request earlier ih =>
    rcases List.mem_append.1 h with hm | hm
    · exact ⟨request, List.mem_cons_self, earlier, Option.mem_toList.1 hm⟩
    · obtain ⟨other, ho, before, hevent⟩ := ih hm
      exact ⟨other, List.mem_cons_of_mem _ ho, before, hevent⟩

/-- A call is refused because of its depth only under the limit it was claimed under. -/
theorem callEvent?_refused {ledger : Ledger} {request : LedgerRequest} {actor : Actor}
    {limit : Nat} (h : ledger.callEvent? request = some (.refused actor limit)) :
    ∃ function, request = .enterCall actor limit function := by
  cases request with
  | suspend | resume | leaveCall => cases h
  | enterCall other maxDepth function =>
    rw [callEvent?] at h
    rcases ledger.enterCall_cases other maxDepth function with
      ⟨-, hanswer⟩ | ⟨_, hanswer⟩ | hanswer <;> rw [hanswer] at h <;> cases h
    exact ⟨function, rfl⟩

/-- Suspensions are refused under the limit of the settings. -/
theorem suspensionEvent?_refused {ledger : Ledger} {request : LedgerRequest} {actor : Actor}
    {limit : Nat} (h : ledger.suspensionEvent? request = some (.refused actor limit)) :
    limit = ledger.settings.maxSuspensionsPerActor := by
  cases request with
  | resume | enterCall | leaveCall => cases h
  | suspend other =>
    rw [suspensionEvent?] at h
    rcases ledger.suspend_cases other with ⟨-, hanswer⟩ | hanswer <;> rw [hanswer] at h <;> cases h
    rfl

/-- After all requests, granted or refused, the entries for calls and suspensions are told by
what is held and by the refusals under a limit of zero. The entries for calls leave nothing behind
if no call was claimed under a depth of zero, and those for suspensions if their limit is not
zero. -/
theorem entries_told_by_answers (settings : Settings) (requests : List LedgerRequest) :
    ((after settings requests).depths.Tells (logOf settings callEvent? requests) ∧
      (after settings requests).suspensions.Tells (logOf settings suspensionEvent? requests)) ∧
    ((∀ actor function, .enterCall actor 0 function ∉ requests) →
      (after settings requests).depths.Clean (logOf settings callEvent? requests)) ∧
    (settings.maxSuspensionsPerActor ≠ 0 →
      (after settings requests).suspensions.Clean
        (logOf settings suspensionEvent? requests)) := by
  have hcalls := account_depths settings requests
  have hsuspensions := account_suspensions settings requests
  refine ⟨⟨hcalls.tells, hsuspensions.tells⟩, fun hdepth => hcalls.clean fun actor hm => ?_,
    fun hlimit => hsuspensions.clean fun actor hm => ?_⟩
  · obtain ⟨request, hrequest, earlier, hevent⟩ := exists_of_mem_logOf hm
    obtain ⟨function, rfl⟩ := callEvent?_refused hevent
    exact hdepth actor function hrequest
  · obtain ⟨request, -, earlier, hevent⟩ := exists_of_mem_logOf hm
    have hzero := suspensionEvent?_refused hevent
    rw [settings_after] at hzero
    exact hlimit hzero.symm

/-- Settings under which no run may be suspended. -/
def noSuspensions : Settings :=
  { (default : Settings) with maxSuspensionsPerActor := 0 }

/-- A refused call and a refused suspension leave entries, though nothing was granted. -/
theorem refused_claims_leave_entries :
    (after default [.enterCall ⟨"alex"⟩ 0 "f"]).depths.entries = [(⟨"alex"⟩, 0)] ∧
    (∀ actor, AccountLog.held actor
      (logOf default callEvent? [.enterCall ⟨"alex"⟩ 0 "f"]) = 0) ∧
    (after noSuspensions [.suspend ⟨"alex"⟩]).suspensions.entries = [(⟨"alex"⟩, 0)] ∧
    (∀ actor, AccountLog.held actor
      (logOf noSuspensions suspensionEvent? [.suspend ⟨"alex"⟩]) = 0) :=
  ⟨rfl, fun _ => rfl, rfl, fun _ => rfl⟩

end Ledger

end GridScript
