import GridScript.Engine.Basic
import GridScript.Proofs.Slots

/-!
# Journals

What the journal of an engine says about keys. A slot is vacated once for every
run that ended in it, and its generation is that number in 32 bits. As long as no
slot was vacated 2 ^ 32 times, the generation of a key tells how often its slot had
been vacated when the key was given out, so a key whose run has ended is never
given out again.
-/

namespace GridScript

namespace RunEvent

/-- The run that an event starts. -/
def started? : RunEvent → Option RunKey
  | .started key => some key
  | _ => none

/-- The run that an event ends. -/
def ended? : RunEvent → Option RunKey
  | .ended key => some key
  | _ => none

end RunEvent

namespace Journal

/-- The runs that were started, latest first. -/
def starts (journal : List RunEvent) : List RunKey :=
  journal.filterMap RunEvent.started?

/-- The runs that ended, latest first. -/
def endings (journal : List RunEvent) : List RunKey :=
  journal.filterMap RunEvent.ended?

/-- How often a slot was vacated. -/
def vacated (journal : List RunEvent) (slot : Nat) : Nat :=
  (endings journal).countP (·.slot = slot)

/-- No slot was vacated so often that its generations repeat. -/
def Unworn (journal : List RunEvent) : Prop :=
  ∀ slot, vacated journal slot < 2 ^ 32

/-- The run of a key has ended: its slot has been vacated more often than when the
key was given out. -/
def Past (journal : List RunEvent) (key : RunKey) : Prop :=
  key.generation.toNat < vacated journal key.slot

@[simp] theorem starts_cons_started (key : RunKey) (journal : List RunEvent) :
    starts (.started key :: journal) = key :: starts journal := rfl

@[simp] theorem endings_cons_ended (key : RunKey) (journal : List RunEvent) :
    endings (.ended key :: journal) = key :: endings journal := rfl

/-- An event that starts nothing. -/
theorem starts_cons {event : RunEvent} (h : event.started? = none) (journal : List RunEvent) :
    starts (event :: journal) = starts journal := by
  simp [starts, h]

/-- An event that ends nothing. -/
theorem endings_cons {event : RunEvent} (h : event.ended? = none) (journal : List RunEvent) :
    endings (event :: journal) = endings journal := by
  simp [endings, h]

/-- A slot is vacated by the end of a run in it. -/
theorem vacated_cons_ended (key : RunKey) (journal : List RunEvent) (slot : Nat) :
    vacated (.ended key :: journal) slot =
      vacated journal slot + if key.slot = slot then 1 else 0 := by
  simp [vacated, List.countP_cons]

/-- More events vacate no fewer slots. -/
theorem vacated_le (news journal : List RunEvent) (slot : Nat) :
    vacated journal slot ≤ vacated (news ++ journal) slot := by
  simp [vacated, endings, List.countP_append]

/-- What was not worn out later was not before. -/
theorem Unworn.of_append (news : List RunEvent) {journal : List RunEvent}
    (h : Unworn (news ++ journal)) : Unworn journal :=
  fun slot => Nat.lt_of_le_of_lt (vacated_le news journal slot) (h slot)

/-- A short journal wears no slot out. -/
theorem Unworn.of_length {journal : List RunEvent} (h : journal.length < 2 ^ 32) :
    Unworn journal := by
  intro slot
  have hcount : vacated journal slot ≤ (endings journal).length := List.countP_le_length
  have hlength : (endings journal).length ≤ journal.length := List.length_filterMap_le ..
  omega

/-- What is past stays so. -/
theorem Past.append {journal : List RunEvent} {key : RunKey} (h : Past journal key)
    (news : List RunEvent) : Past (news ++ journal) key :=
  Nat.lt_of_lt_of_le h (vacated_le news journal key.slot)

/-- The generations of slots count how often they were vacated, in 32 bits. -/
def Stamped (runs : SlotMap Run) (journal : List RunEvent) : Prop :=
  ∀ slot, runs.generation slot = UInt32.ofNat (vacated journal slot)

namespace Stamped

variable {runs : SlotMap Run} {journal : List RunEvent}

/-- Nothing is vacated in an engine without runs. -/
theorem initial : Stamped .empty [] :=
  fun _ => rfl

/-- A key of the current generation is not past. -/
theorem not_past (h : Stamped runs journal) (hu : Unworn journal) {key : RunKey}
    (hg : key.generation = runs.generation key.slot) : ¬ Past journal key := by
  have hn : key.generation.toNat = vacated journal key.slot := by
    rw [hg, h key.slot, UInt32.toNat_ofNat_of_lt' (hu key.slot)]
  unfold Past
  omega

/-- A run under way is not past. -/
theorem not_past_of_get? (h : Stamped runs journal) (hu : Unworn journal) {key : RunKey} {run : Run}
    (hk : runs.get? key = some run) : ¬ Past journal key :=
  h.not_past hu (SlotMap.generation_of_get? hk)

/-- A run that ends is past from then on. -/
theorem past_ended (h : Stamped runs journal) {key : RunKey} {run : Run}
    (hu : Unworn journal) (hk : runs.get? key = some run) :
    Past (.ended key :: journal) key := by
  have hn : key.generation.toNat = vacated journal key.slot := by
    rw [SlotMap.generation_of_get? hk, h key.slot, UInt32.toNat_ofNat_of_lt' (hu key.slot)]
  unfold Past
  rw [vacated_cons_ended, if_pos rfl]
  omega

/-- The end of a run starts the next generation of its slot. -/
theorem erase (h : Stamped runs journal) {key : RunKey} {run : Run}
    (hk : runs.get? key = some run) : Stamped (runs.erase key) (.ended key :: journal) := by
  intro slot
  rw [SlotMap.generation_erase hk, vacated_cons_ended]
  by_cases hs : slot = key.slot
  · subst hs
    rw [if_pos rfl, if_pos rfl, h key.slot, UInt32.ofNat_add]
    rfl
  · rw [if_neg hs, if_neg (Ne.symm hs), h slot, Nat.add_zero]

end Stamped

/-- Every run is started and ends once, and nothing is heard of it afterwards. -/
structure Orderly (journal : List RunEvent) : Prop where
  /-- No key is given out twice. -/
  starts : (starts journal).Nodup
  /-- No run ends twice. -/
  endings : (endings journal).Nodup
  /-- The runs that ended are past. -/
  past : ∀ key ∈ Journal.endings journal, Past journal key
  /-- The end of a run is the last event about it. -/
  final : journal.Pairwise fun later earlier => ∀ key, earlier = .ended key → later.key ≠ key

/-- The journal accounts for the runs under way. -/
structure Chronicle (runs : SlotMap Run) (journal : List RunEvent) : Prop where
  /-- The generations of slots count the runs that ended in them. -/
  stamped : Stamped runs journal
  /-- Every run under way was started. -/
  listed : ∀ key run, runs.get? key = some run → key ∈ starts journal
  /-- Every run that was started is under way or has ended. -/
  traced : ∀ key ∈ starts journal, (runs.get? key).isSome ∨ key ∈ endings journal
  /-- Every run that ended was started. -/
  begun : ∀ key ∈ endings journal, key ∈ starts journal
  /-- As long as no slot is worn out, everything is in order. -/
  orderly : Unworn journal → Orderly journal

/-- What can be said about a key that is not past without disturbing the order. -/
theorem Orderly.final_cons {journal : List RunEvent} (h : Orderly journal) {event : RunEvent}
    (hn : ¬ Past journal event.key) :
    (event :: journal).Pairwise fun later earlier =>
      ∀ key, earlier = .ended key → later.key ≠ key := by
  refine List.pairwise_cons.2 ⟨?_, h.final⟩
  rintro earlier hm key rfl rfl
  refine hn (h.past event.key ?_)
  exact List.mem_filterMap.2 ⟨_, hm, rfl⟩

namespace Chronicle

variable {runs : SlotMap Run} {journal : List RunEvent}

/-- An engine without runs has an empty journal. -/
theorem initial : Chronicle .empty [] where
  stamped := .initial
  listed key run h := by cases h
  traced key h := by cases h
  begun key h := by cases h
  orderly _ := ⟨.nil, .nil, by simp [endings], .nil⟩

/-- A run is started under a key that was never given out before. -/
theorem insert (h : Chronicle runs journal) (ht : runs.Tidy) (run : Run) :
    Chronicle (runs.insert run).2 (.started (runs.insert run).1 :: journal) where
  stamped slot := by
    rw [SlotMap.generation_insert ht]
    exact h.stamped slot
  listed key found hk := by
    rw [SlotMap.get?_insert ht] at hk
    split at hk
    · simp [*]
    · exact List.mem_cons_of_mem _ (h.listed key found hk)
  traced key hm := by
    rw [SlotMap.get?_insert ht]
    rcases List.mem_cons.1 hm with rfl | hm
    · simp
    · split
      · exact .inl rfl
      · exact h.traced key hm
  begun key hm := List.mem_cons_of_mem _ (h.begun key hm)
  orderly hu := by
    have ho := h.orderly hu
    have hp : ¬ Past journal (runs.insert run).1 :=
      h.stamped.not_past hu (SlotMap.generation_insert_key ht run)
    refine ⟨List.nodup_cons.2 ⟨fun hm => ?_, ho.starts⟩, ho.endings, ho.past, ho.final_cons hp⟩
    rcases h.traced _ hm with hlive | hended
    · rw [SlotMap.get?_insert_key ht] at hlive
      cases hlive
    · exact hp (ho.past _ hended)

/-- A run ends. -/
theorem erase (h : Chronicle runs journal) {key : RunKey} {run : Run}
    (hk : runs.get? key = some run) : Chronicle (runs.erase key) (.ended key :: journal) where
  stamped := h.stamped.erase hk
  listed other found ho := by
    rw [SlotMap.get?_erase] at ho
    split at ho
    · cases ho
    · exact h.listed other found ho
  traced other hm := by
    rw [SlotMap.get?_erase, endings_cons_ended]
    split
    · simp [*]
    · exact (h.traced other hm).imp_right (List.mem_cons_of_mem _)
  begun other hm := by
    rcases List.mem_cons.1 hm with rfl | hm
    · exact h.listed other run hk
    · exact h.begun other hm
  orderly hu := by
    have hu' : Unworn journal := Unworn.of_append [.ended key] hu
    have ho := h.orderly hu'
    have hp := h.stamped.not_past_of_get? hu' hk
    refine ⟨ho.starts, List.nodup_cons.2 ⟨fun hm => hp (ho.past key hm), ho.endings⟩, ?_,
      ho.final_cons hp⟩
    intro other hm
    rcases List.mem_cons.1 hm with rfl | hm
    · exact h.stamped.past_ended hu' hk
    · exact (ho.past other hm).append [.ended key]

/-- Something else happens to a run under way. -/
theorem event (h : Chronicle runs journal) {event : RunEvent} (hs : event.started? = none)
    (he : event.ended? = none) {run : Run} (hk : runs.get? event.key = some run) :
    Chronicle runs (event :: journal) := by
  have hstarts := starts_cons hs journal
  have hendings := endings_cons he journal
  have hvacated : vacated (event :: journal) = vacated journal := by
    funext slot
    rw [vacated, hendings, vacated]
  have hpast : Past (event :: journal) = Past journal := by
    funext key
    rw [Past, hvacated, Past]
  have hunworn : Unworn (event :: journal) = Unworn journal := by
    rw [Unworn, hvacated, Unworn]
  refine ⟨?_, ?_, ?_, ?_, ?_⟩
  · intro slot
    rw [hvacated]
    exact h.stamped slot
  · rw [hstarts]
    exact h.listed
  · rw [hstarts, hendings]
    exact h.traced
  · rw [hstarts, hendings]
    exact h.begun
  · rw [hunworn]
    intro hu
    have ho := h.orderly hu
    refine ⟨hstarts ▸ ho.starts, hendings ▸ ho.endings, ?_,
      ho.final_cons (h.stamped.not_past_of_get? hu hk)⟩
    rw [hendings, hpast]
    exact ho.past

/-- A run is put back after a change. -/
theorem set (h : Chronicle runs journal) {key : RunKey} {run : Run} (hk : runs.get? key = some run)
    (next : Run) : Chronicle (runs.set key next) journal where
  stamped slot := by
    rw [SlotMap.generation_set hk]
    exact h.stamped slot
  listed other found ho := by
    rw [SlotMap.get?_set hk] at ho
    split at ho
    · rename_i heq
      subst heq
      exact h.listed other run hk
    · exact h.listed other found ho
  traced other hm := by
    rw [SlotMap.get?_set hk]
    split
    · exact .inl rfl
    · exact h.traced other hm
  begun := h.begun
  orderly := h.orderly

end Chronicle

end Journal

end GridScript
