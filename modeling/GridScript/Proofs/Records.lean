import GridScript.Function.Definition
import GridScript.Proofs.Arrivals

/-!
# Records with parts left out

Most stored records leave out the parts that say nothing. Such a record is taken
apart into exactly the parts it was put together from, and every part of a simple
type is read as what was written. Maps are stored in their own order and built up
again in it.
-/

namespace GridScript

namespace Json

/-- The members of a record, where a field without a value is left out. -/
def present (fields : List (String × Option Json)) : List (String × Json) :=
  fields.filterMap fun (name, value) => value.map (name, ·)

/-- A record without fields has no members. -/
@[simp] theorem present_nil : present [] = [] := rfl

/-- A field with a value is a member. -/
@[simp] theorem present_cons_some (name : String) (value : Json)
    (fields : List (String × Option Json)) :
    present ((name, some value) :: fields) = (name, value) :: present fields := rfl

/-- A field without a value is not. -/
@[simp] theorem present_cons_none (name : String) (fields : List (String × Option Json)) :
    present ((name, none) :: fields) = present fields := rfl

/-- Every field with a value is among the members. -/
theorem mem_present {fields : List (String × Option Json)} {name : String} {value : Json}
    (h : (name, some value) ∈ fields) : (name, value) ∈ present fields :=
  List.mem_filterMap.2 ⟨_, h, rfl⟩

/-- Every member stands for a field. -/
theorem name_of_mem_present {fields : List (String × Option Json)} {member : String × Json}
    (h : member ∈ present fields) : member.1 ∈ fields.map Prod.fst := by
  obtain ⟨⟨name, value⟩, hm, hsome⟩ := List.mem_filterMap.1 h
  obtain ⟨content, -, rfl⟩ := Option.map_eq_some_iff.1 hsome
  exact List.mem_map_of_mem hm

/-- No member has a name that is not among the fields. -/
theorem filter_present_eq_nil {fields : List (String × Option Json)} {name : String}
    (h : name ∉ fields.map Prod.fst) : (present fields).filter (·.1 == name) = [] := by
  refine List.filter_eq_nil_iff.2 fun member hm heq => h ?_
  have hname := name_of_mem_present hm
  rw [eq_of_beq heq] at hname
  exact hname

/-- The member of a name is the value of the field. -/
theorem member?_present {fields : List (String × Option Json)}
    (hd : (fields.map Prod.fst).Nodup) {name : String} {value : Option Json}
    (hm : (name, value) ∈ fields) : member? (present fields) name = some value := by
  induction fields with
  | nil => cases hm
  | cons field rest ih =>
    obtain ⟨first, content⟩ := field
    obtain ⟨hnew, hrest⟩ := List.nodup_cons.1 hd
    rcases List.mem_cons.1 hm with heq | hm
    · cases heq
      have hnone := filter_present_eq_nil hnew
      cases value with
      | none => simp [member?, hnone]
      | some value => simp [member?, hnone]
    · have hne : first ≠ name := by
        rintro rfl
        exact hnew (List.mem_map.2 ⟨_, hm, rfl⟩)
      have hskip : (present ((first, content) :: rest)).filter (·.1 == name) =
          (present rest).filter (·.1 == name) := by
        cases content with
        | none => rfl
        | some content => simp [hne]
      unfold member? at ih ⊢
      rw [hskip]
      exact ih hrest hm

/-- Reading several things that were written one by one gives them back. -/
theorem mapM_map_eq_some {α β : Type} {write : α → β} {read? : β → Option α} {items : List α}
    (h : ∀ item ∈ items, read? (write item) = some item) :
    (items.map write).mapM read? = some items := by
  induction items with
  | nil => rfl
  | cons item rest ih =>
    obtain ⟨hitem, hrest⟩ := List.forall_mem_cons.1 h
    rw [List.map_cons, List.mapM_cons, hitem, ih hrest]
    rfl

/-- A record is taken apart into the fields it was put together from. -/
theorem fields?_present (fields : List (String × Option Json))
    (hd : (fields.map Prod.fst).Nodup) :
    fields? (fields.map Prod.fst) (.object (present fields)) = some (fields.map Prod.snd) := by
  have hread : ∀ part : List (String × Option Json), (∀ field ∈ part, field ∈ fields) →
      (part.map Prod.fst).mapM (member? (present fields)) = some (part.map Prod.snd) := by
    intro part
    induction part with
    | nil => exact fun _ => rfl
    | cons field rest ih =>
      intro hsub
      obtain ⟨hfield, hrest⟩ := List.forall_mem_cons.1 hsub
      rw [List.map_cons, List.mapM_cons, member?_present hd hfield, ih hrest]
      rfl
  exact hread fields fun _ => id

/-- An integer within bounds is read as itself. -/
theorem asInteger?_integer {least greatest value : Int} (hl : least ≤ value)
    (hg : value ≤ greatest) : asInteger? least greatest (.integer value) = some value :=
  if_pos ⟨hl, hg⟩

/-- A word is read back. -/
@[simp] theorem asWord?_integer (word : UInt64) : asWord? (.integer word.toNat) = some word := by
  have hlt : word.toNat < UInt64.size := word.toNat_lt
  unfold asWord?
  rw [asInteger?_integer (by omega) (by omega), Option.map_some, Int.toNat_natCast,
    UInt64.ofNat_toNat]

/-- A half word is read back. -/
@[simp] theorem asHalfWord?_integer (word : UInt32) :
    asHalfWord? (.integer word.toNat) = some word := by
  have hlt : word.toNat < UInt32.size := word.toNat_lt
  unfold asHalfWord?
  rw [asInteger?_integer (by omega) (by omega), Option.map_some, Int.toNat_natCast,
    UInt32.ofNat_toNat]

/-- A coordinate is read back. -/
@[simp] theorem asInt32?_integer (value : Int32) :
    asInt32? (.integer value.toInt) = some value := by
  have hleast : Int32.minValue.toInt ≤ value.toInt := value.minValue_le_toInt
  have hgreatest : value.toInt ≤ Int32.maxValue.toInt := value.toInt_le
  unfold asInt32?
  rw [asInteger?_integer hleast hgreatest, Option.map_some, Int32.ofInt_toInt]

/-- A field that is there is read. -/
@[simp] theorem required?_some {α : Type} (value? : Json → Option α) (json : Json) :
    required? value? (some json) = value? json := rfl

/-- A field with a default that is there is read, too. -/
@[simp] theorem defaulted?_some {α : Type} (default : α) (value? : Json → Option α) (json : Json) :
    defaulted? default value? (some json) = value? json := rfl

/-- Something that may be missing is read back if it is never written as null. -/
theorem optional?_map {α : Type} {write : α → Json} {read? : Json → Option α}
    (hn : ∀ value, write value ≠ .null) {part : Option α}
    (h : ∀ value ∈ part, read? (write value) = some value) :
    optional? read? (part.map write) = some part := by
  cases part with
  | none => rfl
  | some value =>
    have hread := h value rfl
    change nullable? read? (write value) = _
    unfold nullable?
    split
    · rename_i hnull
      exact absurd hnull (hn value)
    · rw [hread]
      rfl

/-- Something that is left out when it is the default is read back. -/
theorem defaulted?_ite {α : Type} {default value : α} {read? : Json → Option α} {json : Json}
    {omitted : Prop} [Decidable omitted] (hd : omitted → value = default)
    (h : ¬ omitted → read? json = some value) :
    defaulted? default read? (if omitted then none else some json) = some value := by
  split
  · rename_i ho
    rw [hd ho]
    rfl
  · rename_i ho
    exact h ho

/-- A list is read back if its items are. -/
theorem asList?_array {α : Type} {write : α → Json} {read? : Json → Option α} {items : List α}
    (h : ∀ item ∈ items, read? (write item) = some item) :
    asList? read? (.array (items.map write)) = some items :=
  mapM_map_eq_some h

/-- Named parts are read back if the parts are. -/
theorem asMembers?_object {α : Type} {write : α → Json} {read? : Json → Option α}
    {entries : List (String × α)} (h : ∀ entry ∈ entries, read? (write entry.2) = some entry.2) :
    asMembers? read? (.object (entries.map fun (name, value) => (name, write value))) =
      some entries := by
  refine mapM_map_eq_some fun entry hm => ?_
  obtain ⟨name, value⟩ := entry
  have hread : read? (write value) = some value := h (name, value) hm
  dsimp only
  rw [hread]
  rfl

end Json

/-- Every kind of value is known by its name. -/
@[simp] theorem ValueKind.ofName?_name (kind : ValueKind) : ofName? kind.name = some kind := by
  cases kind <;> decide

/-- A stored kind of value is read back. -/
@[simp] theorem ValueKind.ofJson?_toJson (kind : ValueKind) : ofJson? kind.toJson = some kind :=
  kind.ofName?_name

/-- Every category is known by its name. -/
@[simp] theorem Category.ofName?_name (category : Category) :
    ofName? category.name = some category := by
  cases category <;> decide

/-- Every role of a bracket is known by its name. -/
@[simp] theorem BracketRole.ofName?_name (role : BracketRole) : ofName? role.name = some role := by
  cases role <;> decide

/-- A stored cell is read back. -/
@[simp] theorem Position.ofJson?_toJson (position : Position) :
    ofJson? position.toJson = some position := by
  simp [ofJson?, toJson, Json.fields?, Json.member?]

/-- A stored place is read back. -/
@[simp] theorem Place.ofJson?_toJson (place : Place) : ofJson? place.toJson = some place := by
  simp [ofJson?, toJson, Json.fields?, Json.member?, Json.asText?]

/-- A stored item is read back. -/
@[simp] theorem Item.ofJson?_toJson (item : Item) : ofJson? item.toJson = some item := by
  obtain ⟨material, amount, name⟩ := item
  cases name <;> simp [ofJson?, toJson, Json.fields?, Json.member?, Json.asText?, Json.optional?,
    Json.defaulted?, Json.nullable?]

/-- A key beyond all others goes to the end. -/
theorem Entries.insert_of_forall_lt {κ α : Type} [Ord κ] [Std.OrientedOrd κ] {key : κ}
    {value : α} {entries : List (κ × α)} (h : ∀ entry ∈ entries, compare entry.1 key = .lt) :
    insert key value entries = entries ++ [(key, value)] := by
  induction entries with
  | nil => rfl
  | cons entry rest ih =>
    obtain ⟨hentry, hrest⟩ := List.forall_mem_cons.1 h
    have hgt : compare key entry.1 = .gt := Std.OrientedCmp.gt_iff_lt.2 hentry
    simp only [insert, hgt, ih hrest, List.cons_append]

/-- Entries in ascending order are built up as they are. -/
theorem Entries.ofList_eq_self {κ α : Type} [Ord κ] [Std.OrientedOrd κ]
    {entries : List (κ × α)} (h : Ascending entries) : ofList entries = entries := by
  have hfold : ∀ rest done : List (κ × α), Ascending (done ++ rest) →
      rest.foldl (fun done entry => insert entry.1 entry.2 done) done = done ++ rest := by
    intro rest
    induction rest with
    | nil => exact fun done _ => (List.append_nil done).symm
    | cons entry rest ih =>
      intro done hasc
      have hbefore : ∀ other ∈ done, compare other.1 entry.1 = .lt := fun other hm =>
        (List.pairwise_append.1 hasc).2.2 other hm entry List.mem_cons_self
      rw [List.foldl_cons, insert_of_forall_lt hbefore, ih _ (by simpa using hasc)]
      simp
  exact hfold entries [] h

/-- A map in order of arrival is built up again from its entries. -/
theorem ArrivalMap.ofList_entries {κ α : Type} [DecidableEq κ] (map : ArrivalMap κ α) :
    ofList map.entries = map := by
  have hfold : ∀ (rest : List (κ × α)) (done : ArrivalMap κ α),
      ((done.entries ++ rest).map Prod.fst).Nodup →
      (rest.foldl (fun map entry => map.insert entry.1 entry.2) done).entries =
        done.entries ++ rest := by
    intro rest
    induction rest with
    | nil => exact fun done _ => (List.append_nil _).symm
    | cons entry rest ih =>
      intro done hdistinct
      have hnew : entry.1 ∉ done.entries.map Prod.fst := by
        intro hold
        rw [List.map_append] at hdistinct
        exact (List.nodup_append.1 hdistinct).2.2 _ hold _ List.mem_cons_self rfl
      have hinsert : (done.insert entry.1 entry.2).entries = done.entries ++ [entry] := by
        unfold insert
        rw [dif_neg hnew]
      rw [List.foldl_cons, ih _ (by rw [hinsert]; simpa using hdistinct), hinsert]
      simp
  exact eq_of_entries_eq (hfold map.entries empty map.distinct)

end GridScript
