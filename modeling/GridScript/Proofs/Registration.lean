import GridScript.Proofs.Layers

/-!
# What the registry holds

Whatever is registered, removed and restored, every function the registry holds is
valid and linked and stands under its own key. The key of most functions does not
say whose they are; nevertheless only the owner can put another function in the
place of one or take it away, and a request that is refused changes nothing.

The key is also what makes a few look-ups enough to answer a call. They find a
function exactly if one of that name may be called at all, and then one of the most
specific tier. Statistics are found under the key alone, so for functions that are not
private it does not matter who is said to own them.
-/

namespace GridScript

/-- Keys of functions compare equal only to themselves. -/
instance : Std.LawfulEqOrd TierKey where
  eq_of_compare {a b} h := by
    obtain ⟨ht, hqn⟩ := compareLex_eq_eq.1 h
    obtain ⟨hq, hn⟩ := compareLex_eq_eq.1 hqn
    have hrank : a.tier.rank = b.tier.rank := Std.LawfulEqOrd.eq_of_compare ht
    have htier : a.tier = b.tier := by
      revert hrank
      cases a.tier <;> cases b.tier <;> simp [Tier.rank]
    have hqualifier : a.qualifier = b.qualifier := Std.LawfulEqOrd.eq_of_compare hq
    have hname : a.name = b.name := Std.LawfulEqOrd.eq_of_compare hn
    cases a
    cases b
    simp_all

/-- An entry as the registry keeps it under a key. -/
structure FunctionEntry.Admitted (entry : FunctionEntry) (key : TierKey) : Prop where
  /-- The definition keeps all rules. -/
  valid : entry.definition.validate = .ok ()
  /-- The key is that of the definition. -/
  key : key = entry.definition.key
  /-- The script is the linked body. -/
  linked : entry.script =
    Script.ofBody entry.definition.name entry.definition.origin entry.definition.body

namespace FunctionRegistry

/-- What an actor can ask for. -/
inductive Request where
  /-- Register a function, in the place of another one if so desired. -/
  | register (definition : FunctionDefinition) (replace : Bool)
  /-- Remove a function of an owner. -/
  | unregister (name : String) (scope : FunctionScope) (owner : Actor)

/-- Answers a request: whether it was granted, and the registry after it. -/
def answer (registry : FunctionRegistry) : Request → Bool × FunctionRegistry
  | .register definition replace =>
    match registry.register definition replace with
    | .ok (_, after) => (true, after)
    | .error _ => (false, registry)
  | .unregister name scope owner => registry.unregister name scope owner

/-- The registry after several requests. -/
def answerAll (registry : FunctionRegistry) (requests : List Request) : FunctionRegistry :=
  requests.foldl (fun registry request => (registry.answer request).2) registry

/-- The definition that a request brings. -/
def Request.brings? : Request → Option FunctionDefinition
  | .register definition _ => some definition
  | .unregister _ _ _ => none

/-- A request of the owner of an entry that takes the entry out of its place. -/
def Request.Displaces (entry : FunctionEntry) : Request → Prop
  | .register definition replace =>
    replace = true ∧ definition.validate = .ok () ∧
      definition.owner = entry.definition.owner ∧ definition.key = entry.definition.key
  | .unregister name scope owner =>
    owner = entry.definition.owner ∧ scope.key owner name = entry.definition.key

/-- The registries that requests, restored definitions and calls lead to. -/
inductive Reachable : FunctionRegistry → Prop where
  /-- Nothing was registered. -/
  | empty : Reachable empty
  /-- A request is answered. -/
  | answer {registry : FunctionRegistry} (past : Reachable registry) (request : Request) :
    Reachable (registry.answer request).2
  /-- Other definitions are put in the place of all, up to the first that is refused. -/
  | restore {registry : FunctionRegistry} (past : Reachable registry)
    (definitions : List FunctionDefinition) : Reachable (registry.restore definitions).2
  /-- The statistics of a function change. -/
  | updateTally {registry : FunctionRegistry} (past : Reachable registry) (handle : Nat)
    (change : Tally → Tally) : Reachable (registry.updateTally handle change)

/-- Every entry is as it should be and has a handle that was given out. -/
structure Orderly (registry : FunctionRegistry) : Prop where
  /-- The entries are admitted under their keys. -/
  admitted : ∀ key entry, registry.functions.get? key = some entry → entry.Admitted key
  /-- The handles are below the next one. -/
  numbered : ∀ key entry, registry.functions.get? key = some entry →
    entry.handle < registry.tallies.size

variable {registry : FunctionRegistry}

/-- Registration puts a valid definition under its key, where nothing of another
owner stood and nothing at all unless it may be replaced. -/
theorem register_eq_ok {definition : FunctionDefinition} {replace : Bool}
    {result : FunctionEntry × FunctionRegistry} :
    registry.register definition replace = .ok result ↔
      definition.validate = .ok () ∧
        (∀ existing, registry.functions.get? definition.key = some existing →
          existing.definition.owner = definition.owner ∧ replace = true) ∧
        result = (registry.newEntry definition, registry.add definition) := by
  have hconflict (existing : FunctionDefinition) : conflict? existing definition replace = none ↔
      existing.owner = definition.owner ∧ replace = true := by
    unfold conflict?
    split
    · rename_i howner
      split <;> simp [howner]
    · rename_i howner
      split <;> simp_all
  unfold register
  simp only [bind, Except.bind]
  cases hv : definition.validate with
  | error error => simp
  | ok =>
    cases hg : registry.functions.get? definition.key with
    | none => simp [eq_comm]
    | some existing =>
      have hfree := hconflict existing.definition
      cases hc : conflict? existing.definition definition replace with
      | some error =>
        rw [hc] at hfree
        simp [hc, ← hfree]
      | none =>
        obtain ⟨howner, rfl⟩ := hfree.1 hc
        simp [hc, howner, eq_comm]

/-- What stands under a key after a function was added. -/
theorem get?_add (registry : FunctionRegistry) (definition : FunctionDefinition) (key : TierKey) :
    (registry.add definition).functions.get? key =
      if key = definition.key then some (registry.newEntry definition)
      else registry.functions.get? key := by
  unfold add
  simp [SortedMap.get?_insert]

/-- An answer adds a valid definition to a free place or to that of the same owner,
or removes a function of the named owner, or is a refusal of a request that would
have displaced nothing. -/
theorem answer_cases (registry : FunctionRegistry) (request : Request) :
    (∃ definition replace, request = .register definition replace ∧
      definition.validate = .ok () ∧
      (∀ existing, registry.functions.get? definition.key = some existing →
        existing.definition.owner = definition.owner ∧ replace = true) ∧
      registry.answer request = (true, registry.add definition)) ∨
    (∃ name scope owner entry, request = .unregister name scope owner ∧
      registry.functions.get? (scope.key owner name) = some entry ∧
      entry.definition.owner = owner ∧
      registry.answer request =
        (true, { registry with functions := registry.functions.erase (scope.key owner name) })) ∨
    ((∀ entry, registry.functions.get? entry.definition.key = some entry →
        ¬ request.Displaces entry) ∧
      registry.answer request = (false, registry)) := by
  cases request with
  | register definition replace =>
    cases hr : registry.register definition replace with
    | ok result =>
      obtain ⟨hvalid, hfree, rfl⟩ := register_eq_ok.1 hr
      exact .inl ⟨definition, replace, rfl, hvalid, hfree, by simp [answer, hr]⟩
    | error error =>
      refine .inr (.inr ⟨?_, by simp [answer, hr]⟩)
      rintro entry hstood ⟨hreplace, hvalid, howner, hkey⟩
      have hfree : ∀ existing, registry.functions.get? definition.key = some existing →
          existing.definition.owner = definition.owner ∧ replace = true := by
        intro existing he
        rw [hkey, hstood] at he
        cases he
        exact ⟨howner.symm, hreplace⟩
      have hok := register_eq_ok.2 ⟨hvalid, hfree, rfl⟩
      rw [hr] at hok
      cases hok
  | unregister name scope owner =>
    simp only [answer, unregister]
    cases hg : registry.functions.get? (scope.key owner name) with
    | none =>
      refine .inr (.inr ⟨?_, rfl⟩)
      rintro entry hstood ⟨-, hkey⟩
      rw [← hkey, hg] at hstood
      cases hstood
    | some found =>
      by_cases howner : found.definition.owner = owner
      · exact .inr (.inl ⟨name, scope, owner, found, rfl, hg, howner, by simp [howner]⟩)
      · refine .inr (.inr ⟨?_, by simp [howner]⟩)
        rintro entry hstood ⟨hnamed, hkey⟩
        rw [← hkey, hg] at hstood
        cases hstood
        exact howner hnamed.symm

/-- An entry is registered if it is found under some key. -/
theorem mem_registered_iff {entry : FunctionEntry} :
    entry ∈ registry.registered ↔ ∃ key, registry.functions.get? key = some entry := by
  simp [registered, SortedMap.get?_eq_some_iff]

namespace Orderly

/-- A registered entry stands under the key of its definition. -/
theorem mem_registered_iff (h : registry.Orderly) {entry : FunctionEntry} :
    entry ∈ registry.registered ↔
      registry.functions.get? entry.definition.key = some entry := by
  rw [FunctionRegistry.mem_registered_iff]
  refine ⟨fun ⟨key, hk⟩ => ?_, fun hk => ⟨_, hk⟩⟩
  rw [← (h.admitted key entry hk).key]
  exact hk

/-- A registry without functions is in order. -/
theorem of_empty (h : registry.functions = .empty) : registry.Orderly := by
  have hnone (key : TierKey) : registry.functions.get? key = none := by
    rw [h]
    rfl
  exact ⟨fun key entry hk => by simp [hnone] at hk, fun key entry hk => by simp [hnone] at hk⟩

/-- A valid definition can be added. -/
theorem add (h : registry.Orderly) {definition : FunctionDefinition}
    (hv : definition.validate = .ok ()) : (registry.add definition).Orderly := by
  have hsize : (registry.add definition).tallies.size = registry.tallies.size + 1 := by
    simp [FunctionRegistry.add]
  constructor
  · intro key entry hk
    rw [get?_add] at hk
    split at hk
    · rename_i hkey
      cases hk
      exact ⟨hv, hkey, rfl⟩
    · exact h.admitted key entry hk
  · intro key entry hk
    rw [get?_add] at hk
    split at hk
    · cases hk
      simp only [newEntry]
      omega
    · have hnumbered := h.numbered key entry hk
      omega

/-- Entries that were there before are in order. -/
theorem of_subset (h : registry.Orderly) {other : FunctionRegistry}
    (hf : ∀ key entry, other.functions.get? key = some entry →
      registry.functions.get? key = some entry)
    (hs : other.tallies.size = registry.tallies.size) : other.Orderly :=
  ⟨fun key entry hk => h.admitted key entry (hf key entry hk),
    fun key entry hk => hs ▸ h.numbered key entry (hf key entry hk)⟩

/-- Every answer leaves the registry in order. -/
theorem answer (h : registry.Orderly) (request : Request) :
    (registry.answer request).2.Orderly := by
  rcases registry.answer_cases request with ⟨definition, replace, -, hvalid, -, ha⟩ |
    ⟨name, scope, owner, found, -, -, -, ha⟩ | ⟨-, ha⟩
  · rw [ha]
    exact h.add hvalid
  · rw [ha]
    refine h.of_subset (fun key entry hk => ?_) rfl
    simp only [SortedMap.get?_erase] at hk
    split at hk
    · cases hk
    · exact hk
  · rw [ha]
    exact h

/-- Definitions that are registered one by one leave the registry in order. -/
theorem registerAll (h : registry.Orderly) (definitions : List FunctionDefinition) :
    (registry.registerAll definitions).2.Orderly := by
  induction definitions generalizing registry with
  | nil => exact h
  | cons definition rest ih =>
    unfold FunctionRegistry.registerAll
    split
    · rename_i after hr
      have hok := register_eq_ok.1 hr
      cases hok.2.2
      exact ih (h.add hok.1)
    · exact h

end Orderly

/-- Every registry that can be reached is in order. -/
theorem Reachable.orderly (h : registry.Reachable) : registry.Orderly := by
  induction h with
  | empty => exact .of_empty rfl
  | answer _ request ih => exact ih.answer request
  | restore _ definitions ih => exact (Orderly.of_empty rfl).registerAll definitions
  | updateTally _ handle change ih =>
    exact ih.of_subset (fun _ _ hk => hk) (by simp [FunctionRegistry.updateTally])

/-- A request that is refused leaves the registry as it was. -/
theorem answer_of_refused {request : Request} (h : (registry.answer request).1 = false) :
    (registry.answer request).2 = registry := by
  rcases registry.answer_cases request with ⟨_, _, -, -, -, ha⟩ | ⟨_, _, _, _, -, -, -, ha⟩ |
    ⟨-, ha⟩
  · simp [ha] at h
  · simp [ha] at h
  · rw [ha]

/-- An entry loses its place exactly by a request of its owner that displaces it, and
such a request is granted: what it brings, if anything, stands there then. -/
theorem Orderly.displaced_iff (h : registry.Orderly) {entry : FunctionEntry}
    (hm : entry ∈ registry.registered) (request : Request) :
    (entry ∉ (registry.answer request).2.registered ↔ request.Displaces entry) ∧
      (request.Displaces entry → (registry.answer request).1 = true ∧
        ((registry.answer request).2.functions.get? entry.definition.key).map (·.definition) =
          request.brings?) := by
  have hstood := h.mem_registered_iff.1 hm
  rw [(h.answer request).mem_registered_iff]
  rcases registry.answer_cases request with ⟨definition, replace, rfl, hvalid, hfree, ha⟩ |
    ⟨name, scope, owner, found, rfl, hf, howner, ha⟩ | ⟨hnot, ha⟩
  · simp only [ha, Request.Displaces, Request.brings?, true_and, get?_add]
    by_cases hkey : entry.definition.key = definition.key
    · obtain ⟨howner, hreplace⟩ := hfree entry (hkey ▸ hstood)
      have hfresh : registry.newEntry definition ≠ entry := by
        intro he
        have hlt := h.numbered _ _ hstood
        rw [← he] at hlt
        exact Nat.lt_irrefl _ hlt
      have hnew : (registry.newEntry definition).definition = definition := rfl
      simp [hkey, hfresh, howner, hreplace, hvalid, hnew]
    · simp [hkey, hstood, Ne.symm hkey]
  · simp only [ha, Request.Displaces, Request.brings?, true_and, SortedMap.get?_erase,
      Std.LawfulEqOrd.compare_eq_iff_eq]
    by_cases hkey : entry.definition.key = scope.key owner name
    · rw [← hkey, hstood] at hf
      cases hf
      simp [hkey, howner]
    · simp [hkey, hstood, Ne.symm hkey]
  · simp [ha, hstood, hnot entry hstood]

/-- An entry that is lost in the course of several requests was displaced by one of
them, up to which it stood. -/
theorem Orderly.displaced_of_answerAll (h : registry.Orderly) {entry : FunctionEntry}
    (hm : entry ∈ registry.registered) {requests : List Request}
    (hl : entry ∉ (registry.answerAll requests).registered) :
    ∃ before request after, requests = before ++ request :: after ∧
      entry ∈ (registry.answerAll before).registered ∧ request.Displaces entry ∧
      ((registry.answerAll before).answer request).1 = true := by
  induction requests generalizing registry with
  | nil => exact absurd hm hl
  | cons request rest ih =>
    by_cases hkept : entry ∈ (registry.answer request).2.registered
    · obtain ⟨before, displacing, after, hrest, hstood, hd, hgranted⟩ :=
        ih (h.answer request) hkept hl
      exact ⟨request :: before, displacing, after, by rw [hrest, List.cons_append], hstood, hd,
        hgranted⟩
    · have hdisplaced := h.displaced_iff hm request
      have hd := hdisplaced.1.1 hkept
      exact ⟨[], request, rest, rfl, hm, hd, (hdisplaced.2 hd).1⟩

/-- Requests in a row lead to a registry that can be reached. -/
theorem Reachable.answerAll (h : registry.Reachable) (requests : List Request) :
    (registry.answerAll requests).Reachable := by
  induction requests generalizing registry with
  | nil => exact h
  | cons request rest ih => exact ih (h.answer request)

/-- In every registry that can be reached all entries are admitted, a refusal
changes nothing, and an entry loses its place, at once or in the course of many
requests, exactly by a granted request of its owner: to what is registered in its
place, or to nothing. -/
theorem owners_isolated (h : registry.Reachable) :
    (∀ stored ∈ registry.functions.entries, stored.2.Admitted stored.1) ∧
      (∀ request, (registry.answer request).1 = false →
        (registry.answer request).2 = registry) ∧
      (∀ entry ∈ registry.registered, ∀ request,
        (entry ∉ (registry.answer request).2.registered ↔ request.Displaces entry) ∧
          (request.Displaces entry → (registry.answer request).1 = true ∧
            ((registry.answer request).2.functions.get? entry.definition.key).map
              (·.definition) = request.brings?)) ∧
      (∀ entry ∈ registry.registered, ∀ requests,
        entry ∉ (registry.answerAll requests).registered →
        ∃ before request after, requests = before ++ request :: after ∧
          entry ∈ (registry.answerAll before).registered ∧ request.Displaces entry ∧
          ((registry.answerAll before).answer request).1 = true) := by
  have horderly := h.orderly
  refine ⟨fun stored hm => ?_, fun request => answer_of_refused, fun entry hm request => ?_,
    fun entry hm requests hl => ?_⟩
  · exact horderly.admitted _ _ (SortedMap.get?_eq_some_iff.2 hm)
  · exact horderly.displaced_iff hm request
  · exact horderly.displaced_of_answerAll hm hl

/-- A shared function of one actor that another one may call. -/
def sharedGreeting : FunctionDefinition :=
  { FunctionDefinition.plain "greet" ⟨"alice"⟩ .shared none with sharedWith := [⟨"dave"⟩] }

/-- Three functions of one name: one for everyone, one that is shared and a private
one. -/
def greetings : List Request :=
  [.register (.plain "greet" ⟨"carol"⟩ .everyone none) false, .register sharedGreeting false,
    .register (.plain "greet" ⟨"bob"⟩ .ownerPrivate none) false]

/-- The shared function is neither replaced nor removed by another actor; whatever
happens later, it is lost only by a request of its owner. -/
theorem owners_isolated_greetings :
    ([.register (.plain "greet" ⟨"bob"⟩ .shared none) true,
      .unregister "greet" .shared ⟨"bob"⟩].map fun request =>
        ((empty.answerAll greetings).answer request).1) = [false, false] ∧
      ∃ entry ∈ (empty.answerAll greetings).registered,
        entry.definition.owner.name = "alice" ∧
        ∀ requests, entry ∉ ((empty.answerAll greetings).answerAll requests).registered →
          ∃ request ∈ requests, request.Displaces entry := by
  have hfound : ((empty.answerAll greetings).functions.get? ⟨.shared, "", "greet"⟩).map
      (·.definition.owner.name) = some "alice" := by decide +kernel
  obtain ⟨entry, hget, howner⟩ := Option.map_eq_some_iff.1 hfound
  have hm := mem_registered_iff.2 ⟨_, hget⟩
  refine ⟨by decide +kernel, entry, hm, howner, fun requests hl => ?_⟩
  obtain ⟨before, request, after, rfl, -, hd, -⟩ :=
    (owners_isolated (Reachable.empty.answerAll greetings)).2.2.2 entry hm requests hl
  exact ⟨request, by simp, hd⟩

end FunctionRegistry

/-- An actor may call a function from a program that runs in a world. -/
def FunctionDefinition.CallableBy (definition : FunctionDefinition) (caller : Actor)
    (world : String) : Prop :=
  match definition.scope with
  | .ownerPrivate => definition.owner = caller
  | .shared => definition.owner = caller ∨ caller ∈ definition.sharedWith
  | .world home => home = world
  | .everyone => True

namespace FunctionRegistry

variable {registry : FunctionRegistry}

/-- The key of what a tier has for a call. -/
def callKey (name : String) (caller : Actor) (world : String) : Tier → TierKey
  | .ownerPrivate => ⟨.ownerPrivate, caller.name, name⟩
  | .shared => ⟨.shared, "", name⟩
  | .world => ⟨.world, world, name⟩
  | .everyone => ⟨.everyone, "", name⟩

/-- A caller may call a registered function under a name. -/
def Offers (registry : FunctionRegistry) (name : String) (caller : Actor) (world : String)
    (entry : FunctionEntry) : Prop :=
  entry ∈ registry.registered ∧ entry.definition.name = name ∧
    entry.definition.CallableBy caller world

/-- What a tier has for a call. -/
def candidate? (registry : FunctionRegistry) (name : String) (caller : Actor) (world : String)
    (tier : Tier) : Option FunctionEntry :=
  (registry.functions.get? (callKey name caller world tier)).filter
    fun entry => tier ≠ .shared || entry.definition.isSharedWith caller

section Lookup

variable {name : String} {caller : Actor} {world : String}

/-- A function of a name that may be called stands where the call looks for it in its
tier, and nothing else that may be called stands there. -/
theorem key_eq_callKey_iff {definition : FunctionDefinition}
    (hc : definition.CallableBy caller world) (tier : Tier) :
    definition.key = callKey name caller world tier ↔
      definition.name = name ∧ definition.key.tier = tier := by
  unfold FunctionDefinition.CallableBy at hc
  unfold FunctionDefinition.key FunctionScope.key
  cases hscope : definition.scope with
  | ownerPrivate =>
    have howner : definition.owner = caller := by simpa [hscope] using hc
    cases tier <;> simp [callKey, howner]
  | shared => cases tier <;> simp [callKey]
  | world home =>
    have hhome : home = world := by simpa [hscope] using hc
    cases tier <;> simp [callKey, hhome]
  | everyone => cases tier <;> simp [callKey]

/-- What stands where a call looks for a function may be called, except that a shared
one has to be shared with the caller. -/
theorem callableBy_iff_of_key {definition : FunctionDefinition} {tier : Tier}
    (hk : definition.key = callKey name caller world tier) :
    definition.CallableBy caller world ↔
      (tier = .shared → definition.isSharedWith caller = true) := by
  unfold FunctionDefinition.key FunctionScope.key at hk
  unfold FunctionDefinition.CallableBy FunctionDefinition.isSharedWith
  cases hscope : definition.scope with
  | ownerPrivate =>
    have howner (hq : definition.owner.name = caller.name) : definition.owner = caller :=
      congrArg Actor.mk hq
    cases tier <;> simp_all [callKey]
  | shared => cases tier <;> simp_all [callKey]
  | world home => cases tier <;> simp_all [callKey]
  | everyone => cases tier <;> simp_all [callKey]

/-- What a tier of an orderly registry has for a call is the registered function of
that name and tier that may be called. -/
theorem Orderly.candidate?_eq_some_iff (h : registry.Orderly) {tier : Tier}
    {entry : FunctionEntry} : registry.candidate? name caller world tier = some entry ↔
      registry.Offers name caller world entry ∧ entry.definition.key.tier = tier := by
  have hpermitted : (tier ≠ .shared || entry.definition.isSharedWith caller) = true ↔
      (tier = .shared → entry.definition.isSharedWith caller = true) := by
    by_cases ht : tier = .shared <;> simp [ht]
  unfold candidate? Offers
  rw [Option.filter_eq_some_iff, hpermitted, h.mem_registered_iff]
  constructor
  · rintro ⟨hk, hp⟩
    have hkey := (h.admitted _ _ hk).key
    have hc := (callableBy_iff_of_key hkey.symm).2 hp
    obtain ⟨hname, htier⟩ := (key_eq_callKey_iff hc tier).1 hkey.symm
    exact ⟨⟨hkey ▸ hk, hname, hc⟩, htier⟩
  · rintro ⟨⟨hk, hname, hc⟩, htier⟩
    have hkey := (key_eq_callKey_iff hc tier).2 ⟨hname, htier⟩
    exact ⟨hkey ▸ hk, (callableBy_iff_of_key hkey).1 hc⟩

/-- A call takes the first candidate, from the most specific tier on. -/
theorem lookup?_eq (registry : FunctionRegistry) : registry.lookup? name caller world =
    (registry.candidate? name caller world .ownerPrivate).or
      ((registry.candidate? name caller world .shared).or
        ((registry.candidate? name caller world .world).or
          (registry.candidate? name caller world .everyone))) := by
  have hall (found : Option FunctionEntry) : (found.filter fun _ => true) = found := by
    cases found <;> rfl
  simp [candidate?, lookup?, callKey, hall]

/-- Nothing is found exactly if no tier has a candidate. -/
theorem lookup?_eq_none_iff : registry.lookup? name caller world = none ↔
    ∀ tier, registry.candidate? name caller world tier = none := by
  rw [lookup?_eq]
  simp only [Option.or_eq_none_iff]
  constructor
  · rintro ⟨hprivate, hshared, hworld, heveryone⟩ tier
    cases tier <;> assumption
  · intro hnone
    exact ⟨hnone _, hnone _, hnone _, hnone _⟩

/-- What is found is the candidate of a tier, and more specific tiers have none. -/
theorem candidate_of_lookup? {entry : FunctionEntry}
    (hl : registry.lookup? name caller world = some entry) :
    ∃ tier, registry.candidate? name caller world tier = some entry ∧
      ∀ other, other.rank < tier.rank → registry.candidate? name caller world other = none := by
  rw [lookup?_eq] at hl
  simp only [Option.or_eq_some_iff] at hl
  rcases hl with hl | ⟨hprivate, hl | ⟨hshared, hl | ⟨hworld, hl⟩⟩⟩
  · exact ⟨.ownerPrivate, hl, fun other hr => by cases other <;> simp_all [Tier.rank]⟩
  · exact ⟨.shared, hl, fun other hr => by cases other <;> simp_all [Tier.rank]⟩
  · exact ⟨.world, hl, fun other hr => by cases other <;> simp_all [Tier.rank]⟩
  · exact ⟨.everyone, hl, fun other hr => by cases other <;> simp_all [Tier.rank]⟩

/-- In every registry that can be reached a call finds a function exactly if it may
call one of that name, and then it gets one that it may call, of the most specific
tier that has one. -/
theorem lookup_serves_callers (h : registry.Reachable) (name : String) (caller : Actor)
    (world : String) :
    ((registry.lookup? name caller world).isSome ↔
        ∃ entry, registry.Offers name caller world entry) ∧
      ∀ entry, registry.lookup? name caller world = some entry →
        registry.Offers name caller world entry ∧
          ∀ other, registry.Offers name caller world other →
            entry.definition.key.tier.rank ≤ other.definition.key.tier.rank := by
  have horderly := h.orderly
  have hcandidate (entry : FunctionEntry) (ho : registry.Offers name caller world entry) :
      registry.candidate? name caller world entry.definition.key.tier = some entry :=
    horderly.candidate?_eq_some_iff.2 ⟨ho, rfl⟩
  refine ⟨⟨fun hsome => ?_, ?_⟩, fun entry hl => ?_⟩
  · obtain ⟨entry, hl⟩ := Option.isSome_iff_exists.1 hsome
    obtain ⟨tier, hfirst, -⟩ := candidate_of_lookup? hl
    exact ⟨entry, (horderly.candidate?_eq_some_iff.1 hfirst).1⟩
  · rintro ⟨entry, ho⟩
    rw [← Option.ne_none_iff_isSome]
    intro hnone
    have hsome := hcandidate entry ho
    rw [lookup?_eq_none_iff.1 hnone] at hsome
    cases hsome
  · obtain ⟨tier, hfirst, hbefore⟩ := candidate_of_lookup? hl
    obtain ⟨ho, rfl⟩ := horderly.candidate?_eq_some_iff.1 hfirst
    refine ⟨ho, fun other hother => Nat.le_of_not_lt fun hlt => ?_⟩
    have hnone := hbefore _ hlt
    rw [hcandidate other hother] at hnone
    cases hnone

/-- The owner of the private function gets that one, an actor the shared one is shared
with gets the shared one, and someone else gets the one for everyone. -/
theorem lookup_serves_callers_greetings :
    ["bob", "dave", "erin"].map (fun caller =>
        ((empty.answerAll greetings).lookup? "greet" ⟨caller⟩ "plain").map
          (·.definition.owner.name)) = [some "bob", some "alice", some "carol"] ∧
      ∃ entry, (empty.answerAll greetings).lookup? "greet" ⟨"dave"⟩ "plain" = some entry ∧
        ∀ other, (empty.answerAll greetings).Offers "greet" ⟨"dave"⟩ "plain" other →
          entry.definition.key.tier.rank ≤ other.definition.key.tier.rank := by
  have howners : ["bob", "dave", "erin"].map (fun caller =>
      ((empty.answerAll greetings).lookup? "greet" ⟨caller⟩ "plain").map
        (·.definition.owner.name)) = [some "bob", some "alice", some "carol"] := by decide +kernel
  refine ⟨howners, ?_⟩
  have hdave := (List.cons.inj (List.cons.inj howners).2).1
  obtain ⟨entry, hl, -⟩ := Option.map_eq_some_iff.1 hdave
  have hreachable := Reachable.empty.answerAll greetings
  have hserved := (lookup_serves_callers hreachable "greet" ⟨"dave"⟩ "plain").2 entry hl
  exact ⟨entry, hl, hserved.2⟩

end Lookup

end FunctionRegistry

/-- Keys tell names and scopes apart, but owners only where functions are private. -/
theorem FunctionDefinition.key_eq_iff {definition : FunctionDefinition} {name : String}
    {scope : FunctionScope} {owner : Actor} :
    definition.key = scope.key owner name ↔
      definition.name = name ∧ definition.scope = scope ∧
        (scope = .ownerPrivate → definition.owner = owner) := by
  have howner : definition.owner.name = owner.name ↔ definition.owner = owner :=
    ⟨congrArg Actor.mk, congrArg Actor.name⟩
  unfold FunctionDefinition.key FunctionScope.key
  cases definition.scope <;> cases scope <;> simp [howner, and_comm]

namespace FunctionRegistry

variable {registry : FunctionRegistry}

/-- What an orderly registry has under the key of a name, scope and owner is a registered
function of that name and scope, and of that owner if it is private. -/
theorem Orderly.get?_key_eq_some_iff (h : registry.Orderly) {name : String}
    {scope : FunctionScope} {owner : Actor} {entry : FunctionEntry} :
    registry.functions.get? (scope.key owner name) = some entry ↔
      entry ∈ registry.registered ∧ entry.definition.name = name ∧
        entry.definition.scope = scope ∧
        (scope = .ownerPrivate → entry.definition.owner = owner) := by
  rw [h.mem_registered_iff, ← FunctionDefinition.key_eq_iff]
  constructor
  · intro hk
    have hkey := (h.admitted _ _ hk).key
    exact ⟨hkey ▸ hk, hkey.symm⟩
  · rintro ⟨hk, hkey⟩
    exact hkey ▸ hk

/-- A function is removed exactly if one of just that name, scope and owner is registered. -/
theorem Orderly.unregister_iff (h : registry.Orderly) {name : String} {scope : FunctionScope}
    {owner : Actor} :
    (registry.unregister name scope owner).1 = true ↔
      ∃ entry ∈ registry.registered, entry.definition.name = name ∧
        entry.definition.scope = scope ∧ entry.definition.owner = owner := by
  have hremoved : (registry.unregister name scope owner).1 = true ↔
      ∃ entry, registry.functions.get? (scope.key owner name) = some entry ∧
        entry.definition.owner = owner := by
    simp only [unregister]
    cases registry.functions.get? (scope.key owner name) with
    | none => simp
    | some found =>
      by_cases howner : found.definition.owner = owner <;> simp [howner]
  rw [hremoved]
  simp only [h.get?_key_eq_some_iff]
  constructor
  · rintro ⟨entry, ⟨hm, hname, hscope, -⟩, howner⟩
    exact ⟨entry, hm, hname, hscope, howner⟩
  · rintro ⟨entry, hm, hname, hscope, howner⟩
    exact ⟨entry, ⟨hm, hname, hscope, fun _ => howner⟩, howner⟩

/-- In every registry that can be reached statistics are found under a name, scope and
owner exactly if a function of that name and scope is registered, for a private function
with that owner, and they are those of this function. So they are found if a function of
just that owner is registered, but the owner is asked for only where functions are
private. To remove a function takes just its name, scope and owner. -/
theorem stats_by_name_and_scope (h : registry.Reachable) (name : String)
    (scope : FunctionScope) (owner : Actor) :
    (∀ tally, registry.stats? name scope owner = some tally ↔
        ∃ entry ∈ registry.registered, entry.definition.name = name ∧
          entry.definition.scope = scope ∧
          (scope = .ownerPrivate → entry.definition.owner = owner) ∧
          registry.tally entry.handle = tally) ∧
      (∀ entry ∈ registry.registered, entry.definition.name = name →
        entry.definition.scope = scope → entry.definition.owner = owner →
        registry.stats? name scope owner = some (registry.tally entry.handle)) ∧
      ((registry.unregister name scope owner).1 = true ↔
        ∃ entry ∈ registry.registered, entry.definition.name = name ∧
          entry.definition.scope = scope ∧ entry.definition.owner = owner) := by
  have hstats (tally : Tally) : registry.stats? name scope owner = some tally ↔
      ∃ entry ∈ registry.registered, entry.definition.name = name ∧
        entry.definition.scope = scope ∧
        (scope = .ownerPrivate → entry.definition.owner = owner) ∧
        registry.tally entry.handle = tally := by
    unfold stats?
    simp only [Option.map_eq_some_iff, h.orderly.get?_key_eq_some_iff, and_assoc]
  refine ⟨hstats, fun entry hm hname hscope howner => ?_, h.orderly.unregister_iff⟩
  exact (hstats _).2 ⟨entry, hm, hname, hscope, fun _ => howner, rfl⟩

/-- The greetings, of which the one for everyone was called once. -/
def calledGreetings : FunctionRegistry :=
  (empty.answerAll greetings).updateTally 0 Tally.start

/-- The registry of greetings can be reached. -/
theorem reachable_calledGreetings : calledGreetings.Reachable :=
  (Reachable.empty.answerAll greetings).updateTally 0 Tally.start

/-- The owner of the greeting for everyone finds its one call, the owner of the private one
finds that it was not called, and nobody else finds statistics of a private one. -/
theorem stats_by_name_and_scope_greetings : calledGreetings.Reachable ∧
    calledGreetings.stats? "greet" .everyone ⟨"carol"⟩ = some Tally.zero.start ∧
      calledGreetings.stats? "greet" .ownerPrivate ⟨"bob"⟩ = some .zero ∧
      ¬ ∃ entry ∈ calledGreetings.registered, entry.definition.name = "greet" ∧
        entry.definition.scope = .ownerPrivate ∧ entry.definition.owner = ⟨"erin"⟩ := by
  refine ⟨reachable_calledGreetings, by decide +kernel, by decide +kernel, fun herin => ?_⟩
  obtain ⟨entry, hm, hname, hscope, howner⟩ := herin
  have hfound := (stats_by_name_and_scope reachable_calledGreetings "greet" .ownerPrivate
    ⟨"erin"⟩).2.1 entry hm hname hscope howner
  have hnone : calledGreetings.stats? "greet" .ownerPrivate ⟨"erin"⟩ = none := by decide +kernel
  rw [hnone] at hfound
  cases hfound

/-- An actor without functions is shown the statistics of another one's function. -/
theorem stats_shown_to_strangers :
    calledGreetings.Reachable ∧
      calledGreetings.stats? "greet" .everyone ⟨"erin"⟩ = some Tally.zero.start ∧
      ¬ ∃ entry ∈ calledGreetings.registered, entry.definition.name = "greet" ∧
        entry.definition.scope = .everyone ∧ entry.definition.owner = ⟨"erin"⟩ :=
  ⟨reachable_calledGreetings, by decide +kernel, by decide +kernel⟩

end FunctionRegistry

end GridScript
