import GridScript.Proofs.Persistence
import Mathlib.Algebra.Ring.Nat

/-!
# New identities

Identities are handed out by a counter of 64 bits, which moves past every identity that is read
from a document. As long as a counter without a bound would stay below 2 ^ 64, the one of 64 bits
stands where that would, and each identity handed out is new. The greatest identity is never read,
so it is handed out when the room ends; behind it the counter starts from zero and hands out every
identity again. Reading uses up room: an identity that is just below the greatest leaves room for
one more only.
-/

namespace GridScript

/-- Something that happens to the counter of identities. -/
inductive IdEvent where
  /-- An identity is handed out. -/
  | issued (id : NodeId)
  /-- An identity is read from a document. -/
  | restored (id : NodeId)

namespace IdEvent

/-- The identity of an event. -/
def id : IdEvent → NodeId
  | .issued id | .restored id => id

/-- Whether an identity is handed out. -/
def isIssued : IdEvent → Bool
  | .issued _ => true
  | .restored _ => false

end IdEvent

namespace IdLog

/-- Where a counter without a bound stands after all that happened, of which the latest is the
first of the log. -/
def unbounded : List IdEvent → Nat
  | [] => 1
  | .issued _ :: earlier => unbounded earlier + 1
  | .restored id :: earlier => max (unbounded earlier) (id.toNat + 1)

end IdLog

/-- Only the greatest identity has none behind it. -/
theorem NodeId.toNat_succ {id : NodeId} (h : id ≠ 0xFFFFFFFFFFFFFFFF) :
    (id + 1).toNat = id.toNat + 1 := by
  have hlt : id.toNat < 2 ^ 64 := id.toNat_lt
  have hne : id.toNat ≠ 2 ^ 64 - 1 := fun heq => h (UInt64.toNat_inj.1 heq)
  rw [UInt64.toNat_add]
  change (id.toNat + 1) % 2 ^ 64 = id.toNat + 1
  omega

/-- The greatest identity is not read. -/
theorem Instruction.ne_of_idOfJson? {json : Json} {id : NodeId} (h : idOfJson? json = some id) :
    id ≠ 0xFFFFFFFFFFFFFFFF := by
  simpa using (Option.filter_eq_some_iff.1 h).2

namespace IdSource

/-- A counter moves past an identity that is read. -/
theorem toNat_next_reserve (source : IdSource) {id : NodeId} (h : id ≠ 0xFFFFFFFFFFFFFFFF) :
    (source.reserve id).next.toNat = max source.next.toNat (id.toNat + 1) := by
  change (if source.next ≤ id + 1 then id + 1 else source.next).toNat = _
  have hsucc := NodeId.toNat_succ h
  split
  · rename_i hle
    rw [UInt64.le_iff_toNat_le] at hle
    omega
  · rename_i hlt
    rw [UInt64.le_iff_toNat_le] at hlt
    omega

/-- The counter after handing out some identities. -/
def skip (source : IdSource) : Nat → IdSource
  | 0 => source
  | count + 1 => (source.skip count).fresh.2

/-- Identities are handed out one after the other. -/
theorem next_skip (source : IdSource) (count : Nat) :
    (source.skip count).next = source.next + UInt64.ofNat count := by
  induction count with
  | zero => exact (UInt64.add_zero _).symm
  | succ count ih =>
    change (source.skip count).next + 1 = _
    rw [ih, UInt64.ofNat_add, UInt64.add_assoc]
    rfl

/-- A counter and all that happened to it, latest first. -/
inductive Logged : IdSource → List IdEvent → Prop where
  /-- To begin with nothing has happened. -/
  | initial : Logged .initial []
  /-- An identity is handed out. -/
  | issue {source : IdSource} {log : List IdEvent} (h : Logged source log) :
    Logged source.fresh.2 (.issued source.fresh.1 :: log)
  /-- An identity is read. -/
  | restore {source : IdSource} {log : List IdEvent} (h : Logged source log) {json : Json}
    {id : NodeId} (hread : Instruction.idOfJson? json = some id) :
    Logged (source.reserve id) (.restored id :: log)

namespace Logged

open IdLog

variable {source : IdSource} {log : List IdEvent}

/-- Within the room the counter stands where one without a bound would. -/
theorem toNat_next (h : source.Logged log) (hroom : unbounded log < 2 ^ 64) :
    source.next.toNat = unbounded log := by
  induction h with
  | initial => rfl
  | @issue source log _ ih =>
    rw [unbounded] at hroom ⊢
    have hbefore := ih (by omega)
    have hne : source.next ≠ 0xFFFFFFFFFFFFFFFF := by
      intro heq
      rw [heq] at hbefore
      change 2 ^ 64 - 1 = _ at hbefore
      omega
    change (source.next + 1).toNat = _
    rw [NodeId.toNat_succ hne, hbefore]
  | restore _ hread ih =>
    rw [unbounded] at hroom ⊢
    rw [toNat_next_reserve _ (Instruction.ne_of_idOfJson? hread), ih (by omega)]

/-- Everything handed out or read lies behind a counter that keeps its room. -/
theorem id_lt_unbounded (h : source.Logged log) (hroom : unbounded log ≤ 2 ^ 64) :
    ∀ event ∈ log, event.id.toNat < unbounded log := by
  induction h with
  | initial => exact nofun
  | @issue source log hbefore ih =>
    rw [unbounded] at hroom ⊢
    have hnext := hbefore.toNat_next (by omega)
    refine List.forall_mem_cons.2 ⟨?_, fun event hm => ?_⟩
    · change source.next.toNat < unbounded log + 1
      omega
    · have hlt := ih (by omega) event hm
      omega
  | @restore _ log _ _ id _ ih =>
    rw [unbounded] at hroom ⊢
    refine List.forall_mem_cons.2 ⟨?_, fun event hm => ?_⟩
    · change id.toNat < max (unbounded log) (id.toNat + 1)
      omega
    · have hlt := ih (by omega) event hm
      omega

/-- Within the room every identity handed out differs from all before it. -/
theorem pairwise_ne (h : source.Logged log) (hroom : unbounded log ≤ 2 ^ 64) :
    log.Pairwise fun later earlier => later.isIssued = true → later.id ≠ earlier.id := by
  induction h with
  | initial => exact .nil
  | @issue source log hbefore ih =>
    rw [unbounded] at hroom
    refine List.pairwise_cons.2 ⟨fun event hm _ heq => ?_, ih (by omega)⟩
    have hlt := hbefore.id_lt_unbounded (by omega) event hm
    have hnext := hbefore.toNat_next (by omega)
    have hsame : source.next = event.id := heq
    rw [← hsame] at hlt
    omega
  | restore _ _ ih =>
    rw [unbounded] at hroom
    exact List.pairwise_cons.2 ⟨fun _ _ hissued _ => Bool.noConfusion hissued, ih (by omega)⟩

/-- The room lasts until the greatest identity is handed out. -/
theorem unbounded_lt_iff (h : source.Logged log) :
    unbounded log < 2 ^ 64 ↔ .issued 0xFFFFFFFFFFFFFFFF ∉ log := by
  induction h with
  | initial => exact iff_of_true (by decide) nofun
  | @issue source log hbefore ih =>
    rw [unbounded, List.mem_cons, not_or, ← ih]
    constructor
    · intro hroom
      have hnext := hbefore.toNat_next (by omega)
      refine ⟨fun heq => ?_, by omega⟩
      have hgreatest : 0xFFFFFFFFFFFFFFFF = source.next := IdEvent.issued.inj heq
      rw [← hgreatest] at hnext
      change 2 ^ 64 - 1 = _ at hnext
      omega
    · rintro ⟨hne, hroom⟩
      have hnext := hbefore.toNat_next hroom
      have hgreatest : unbounded log ≠ 2 ^ 64 - 1 := by
        intro heq
        rw [heq] at hnext
        exact hne (congrArg IdEvent.issued (UInt64.toNat_inj.1 hnext.symm))
      omega
  | @restore _ log _ _ id hread ih =>
    have hid := NodeId.toNat_succ (Instruction.ne_of_idOfJson? hread)
    have hlt := (id + 1).toNat_lt
    rw [unbounded, List.mem_cons, not_or, ← ih]
    exact ⟨fun hroom => ⟨nofun, by omega⟩, fun hroom => by omega⟩

end Logged

end IdSource

namespace Json

/-- Every item of a list that was read was read from some document. -/
theorem exists_of_mem_asList? {α : Type} {item? : Json → Option α} {json : Json} {items : List α}
    (h : asList? item? json = some items) {item : α} (hm : item ∈ items) :
    ∃ document, item? document = some item := by
  cases json with
  | array documents =>
    change documents.mapM item? = some items at h
    induction documents generalizing items with
    | nil =>
      cases h
      cases hm
    | cons document rest ih =>
      rw [List.mapM_cons] at h
      obtain ⟨first, hfirst, h⟩ := Option.bind_eq_some_iff.1 h
      obtain ⟨others, hothers, h⟩ := Option.bind_eq_some_iff.1 h
      cases h
      rcases List.mem_cons.1 hm with rfl | hm
      · exact ⟨document, hfirst⟩
      · exact ih hm hothers
  | _ => cases h

/-- The same holds where the list may be left out. -/
theorem exists_of_mem_defaulted? {α : Type} {item? : Json → Option α} {field : Option Json}
    {items : List α} (h : defaulted? [] (asList? item?) field = some items) {item : α}
    (hm : item ∈ items) : ∃ document, item? document = some item := by
  cases field with
  | none =>
    cases h
    cases hm
  | some json => exact exists_of_mem_asList? h hm

end Json

namespace Node

/-- A stored node that comes apart has an identity, children and links that were read. -/
theorem partsOfJson?_eq_some {α : Type} {child? : Json → Option Node} {link? : Json → Option α}
    {json : Json} {node : Node} {links : List α}
    (h : partsOfJson? child? link? json = some (node, links)) :
    ∃ head children, node = .mk head children none ∧
      (∃ document, Instruction.idOfJson? document = some head.id) ∧
      (∀ child ∈ children, ∃ document, child? document = some child) ∧
      ∀ link ∈ links, ∃ document, link? document = some link := by
  unfold partsOfJson? at h
  obtain ⟨fields, -, h⟩ := Option.bind_eq_some_iff.1 h
  split at h
  · simp only [Option.bind_eq_bind, Option.bind_eq_some_iff] at h
    obtain ⟨id, hid, _, -, _, -, _, -, _, -, _, -, _, -, children, hchildren, links, hlinks, h⟩ := h
    obtain ⟨rfl, rfl⟩ := Prod.mk.inj (Option.some.inj h)
    obtain ⟨document, -, hid⟩ := Option.bind_eq_some_iff.1 hid
    exact ⟨_, children, rfl, ⟨document, hid⟩, fun _ => Json.exists_of_mem_defaulted? hchildren,
      fun _ => Json.exists_of_mem_defaulted? hlinks⟩
  · cases h

/-- What holds of all nodes of some trees holds of all nodes of their chain. -/
theorem forall_walkNext_chain {holds : Instruction → Prop} {nodes : List Node}
    (h : ∀ node ∈ nodes, ∀ head ∈ node.walk, holds head) :
    ∀ head ∈ walkNext (chain nodes), holds head := by
  induction nodes with
  | nil => exact nofun
  | cons node rest ih =>
    obtain ⟨hnode, hrest⟩ := List.forall_mem_cons.1 h
    obtain ⟨head, children, next⟩ := node
    change ∀ other ∈ head :: (walkAll children ++ walkNext (chain rest)), holds other
    obtain ⟨hhead, hinner⟩ := List.forall_mem_cons.1 hnode
    exact List.forall_mem_cons.2 ⟨hhead,
      List.forall_mem_append.2 ⟨(List.forall_mem_append.1 hinner).1, ih hrest⟩⟩

/-- What holds of all nodes of every tree holds of all nodes of the trees. -/
theorem forall_walkAll {holds : Instruction → Prop} {nodes : List Node}
    (h : ∀ node ∈ nodes, ∀ head ∈ node.walk, holds head) : ∀ head ∈ walkAll nodes, holds head := by
  induction nodes with
  | nil => exact nofun
  | cons node rest ih =>
    obtain ⟨hnode, hrest⟩ := List.forall_mem_cons.1 h
    exact List.forall_mem_append.2 ⟨hnode, ih hrest⟩

/-- Every identity of a node that was read was read as one. -/
theorem id_read_of_ofJsonWithin? {levels : Nat} {json : Json} {node : Node}
    (h : ofJsonWithin? levels json = some node) :
    ∀ head ∈ node.walk, ∃ document, Instruction.idOfJson? document = some head.id := by
  induction levels generalizing json node with
  | zero => cases h
  | succ levels ih =>
    obtain ⟨⟨first, links⟩, hparts, h⟩ := Option.bind_eq_some_iff.1 h
    cases h
    obtain ⟨head, children, rfl, hhead, hchildren, hlinks⟩ := partsOfJson?_eq_some hparts
    have hinner : ∀ nodes : List Node,
        (∀ child ∈ nodes, ∃ document, ofJsonWithin? levels document = some child) →
        ∀ head ∈ walkAll nodes, ∃ document, Instruction.idOfJson? document = some head.id := by
      intro nodes hread
      refine forall_walkAll fun child hm => ?_
      obtain ⟨document, hchild⟩ := hread child hm
      exact ih hchild
    change ∀ other ∈ head :: (walkAll children ++ walkNext (chain links)), _
    refine List.forall_mem_cons.2 ⟨hhead, List.forall_mem_append.2 ⟨hinner children hchildren,
      forall_walkNext_chain fun link hlink => ?_⟩⟩
    obtain ⟨document, hlink⟩ := hlinks link hlink
    obtain ⟨⟨node, skipped⟩, hparts, rfl⟩ := Option.map_eq_some_iff.1 hlink
    obtain ⟨head, children, rfl, hhead, hchildren, -⟩ := partsOfJson?_eq_some hparts
    exact List.forall_mem_cons.2 ⟨hhead,
      List.forall_mem_append.2 ⟨hinner children hchildren, nofun⟩⟩

end Node

namespace IdSource.Logged

/-- Moving a counter past identities that were read is reading them one by one. -/
theorem foldl_reserve {heads : List Instruction} {source : IdSource} {log : List IdEvent}
    (h : source.Logged log)
    (hread : ∀ head ∈ heads, ∃ document, Instruction.idOfJson? document = some head.id) :
    (heads.foldl (fun source head => source.reserve head.id) source).Logged
      ((heads.map fun head => .restored head.id).reverse ++ log) := by
  induction heads generalizing source log with
  | nil => exact h
  | cons head rest ih =>
    obtain ⟨⟨document, hid⟩, hrest⟩ := List.forall_mem_cons.1 hread
    rw [List.map_cons, List.reverse_cons, List.append_assoc]
    exact ih (h.restore hid) hrest

/-- Moving a counter past the identities of a node that was read is reading them one by one. -/
theorem reserveIds {source : IdSource} {log : List IdEvent} (h : source.Logged log) {json : Json}
    {node : Node} (hread : Node.ofJson? json = some node) :
    (node.reserveIds source).Logged
      ((node.walk.map fun head => .restored head.id).reverse ++ log) :=
  h.foldl_reserve (Node.id_read_of_ofJsonWithin? hread)

/-- As long as there is room every identity handed out differs from all that were handed out or
read before, and the room lasts until the greatest identity has been handed out. A node that is
read counts as its identities read one by one, wherever they stand in it. Behind the greatest
identity the counter starts from zero and comes to every identity again. -/
theorem identities_new_within_room {source : IdSource} {log : List IdEvent}
    (h : source.Logged log) :
    (IdLog.unbounded log < 2 ^ 64 →
      (IdEvent.issued source.fresh.1 :: log).Pairwise fun later earlier =>
        later.isIssued = true → later.id ≠ earlier.id) ∧
    (IdLog.unbounded log < 2 ^ 64 ↔ .issued 0xFFFFFFFFFFFFFFFF ∉ log) ∧
    (∀ (json : Json) (node : Node), Node.ofJson? json = some node →
      (node.reserveIds source).Logged
        ((node.walk.map fun head => .restored head.id).reverse ++ log)) ∧
    (source.next = 0xFFFFFFFFFFFFFFFF →
      ∀ id : NodeId, (source.fresh.2.skip id.toNat).fresh.1 = id) := by
  refine ⟨fun hroom => h.issue.pairwise_ne hroom, h.unbounded_lt_iff,
    fun json node hread => h.reserveIds hread, fun hnext id => ?_⟩
  have hzero : source.fresh.2.next = 0 := by
    change source.next + 1 = 0
    rw [hnext]
    rfl
  change (source.fresh.2.skip id.toNat).next = id
  rw [next_skip, hzero, UInt64.zero_add, UInt64.ofNat_toNat]

/-- An identity is handed out, one further on is read, and the next two are new. -/
theorem identities_new_within_room_readBetween :
    IdSource.Logged ⟨43⟩ [.issued 42, .restored 41, .issued 1] ∧
    IdLog.unbounded [.issued 42, .restored 41, .issued 1] < 2 ^ 64 ∧
    [IdEvent.issued 43, .issued 42, .restored 41, .issued 1].Pairwise fun later earlier =>
      later.isIssued = true → later.id ≠ earlier.id := by
  have hread : Instruction.idOfJson? (.integer 41) = some 41 := by decide
  have hlog : IdSource.Logged ⟨43⟩ [.issued 42, .restored 41, .issued 1] :=
    (initial.issue.restore hread).issue
  have hroom : IdLog.unbounded [.issued 42, .restored 41, .issued 1] < 2 ^ 64 := by decide
  exact ⟨hlog, hroom, (identities_new_within_room hlog).1 hroom⟩

/-- A stored node with the least identity and a successor with the last one that may be read. -/
def spanningNode : String :=
  "\x7b\"id\": 0, \"symbol\": \"a\", \"category\": \"action\", \"next\": [" ++
    "\x7b\"id\": 18446744073709551614, \"symbol\": \"b\", \"category\": \"action\"\x7d]\x7d"

/-- Two identities after such a node was read, its own identity is handed out. -/
theorem identity_handed_out_after_reading :
    ((Json.readStored? spanningNode).bind Node.ofJson?).map (fun node =>
      (node.walk.map (·.id), (node.reserveIds .initial).fresh.2.fresh.1)) =
        some ([0, 0xFFFFFFFFFFFFFFFE], 0) ∧
    ¬ ∀ (source : IdSource) (log : List IdEvent), source.Logged log →
      source.fresh.1 ∉ log.map IdEvent.id := by
  refine ⟨by decide +kernel, fun hnew => ?_⟩
  have hleast : Instruction.idOfJson? (.integer 0) = some 0 := by decide
  have hlast : Instruction.idOfJson? (.integer 18446744073709551614) =
      some 0xFFFFFFFFFFFFFFFE := by decide
  exact hnew _ _ ((initial.restore hleast).restore hlast).issue (by decide)

end IdSource.Logged

end GridScript
