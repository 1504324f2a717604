/-!
Tables of named values in the order of first insertion. A later value under a known name takes the
place of the earlier one; no name occurs twice, by the type.
-/
namespace Templating

structure Table (α : Type) where
  entries : List (String × α)
  distinct : (entries.map Prod.fst).Nodup
  deriving DecidableEq, Repr

namespace Table
variable {α : Type}

def place (name : String) (value : α) : List (String × α) → List (String × α)
  | [] => [(name, value)]
  | entry :: rest => if entry.1 = name then (name, value) :: rest else entry :: place name value rest

theorem namesOfPlace (name : String) (value : α) (entries : List (String × α)) :
    (place name value entries).map Prod.fst =
      if name ∈ entries.map Prod.fst then entries.map Prod.fst else entries.map Prod.fst ++ [name] := by
  induction entries with
  | nil => simp [place]
  | cons entry rest ih =>
    by_cases h : entry.1 = name
    · simp [place, h]
    · simp only [place, h, if_false, List.map_cons, ih, List.mem_cons, Ne.symm h, false_or]
      split <;> simp

theorem placeDistinct {name : String} {value : α} {entries : List (String × α)}
    (h : (entries.map Prod.fst).Nodup) : ((place name value entries).map Prod.fst).Nodup := by
  rw [namesOfPlace]
  split
  · exact h
  · rename_i absent
    refine List.nodup_append.mpr ⟨h, by simp, fun a ha b hb => ?_⟩
    rintro rfl
    exact absent (by simpa [List.mem_singleton.mp hb] using ha)

def empty : Table α := ⟨[], List.nodup_nil⟩

instance : Inhabited (Table α) := ⟨empty⟩

def names (table : Table α) : List String := table.entries.map Prod.fst

def isEmpty (table : Table α) : Bool := table.entries.isEmpty

def find? (table : Table α) (name : String) : Option α := table.entries.lookup name

def insert (table : Table α) (name : String) (value : α) : Table α :=
  ⟨place name value table.entries, placeDistinct table.distinct⟩

def erase (table : Table α) (name : String) : Table α :=
  ⟨table.entries.filter fun entry => entry.1 ≠ name,
    table.distinct.sublist (List.filter_sublist.map Prod.fst)⟩

def insertAll (table : Table α) (entries : List (String × α)) : Table α :=
  entries.foldl (fun table entry => table.insert entry.1 entry.2) table

def ofList (entries : List (String × α)) : Table α := empty.insertAll entries

def extend (table other : Table α) : Table α := table.insertAll other.entries

theorem entriesInjective {a b : Table α} (h : a.entries = b.entries) : a = b := by
  cases a; cases b; cases h; rfl

theorem insertEntries (table : Table α) (name : String) (value : α) :
    (table.insert name value).entries = place name value table.entries := rfl

theorem placeAbsent {name : String} {entries : List (String × α)} (value : α) (absent : name ∉ entries.map Prod.fst) :
    place name value entries = entries ++ [(name, value)] := by
  induction entries with
  | nil => rfl
  | cons entry entries ih =>
    simp only [List.map_cons, List.mem_cons, not_or] at absent
    rw [place, if_neg (Ne.symm absent.1), ih absent.2, List.cons_append]

theorem memNamesInsert {table : Table α} {name other : String} {value : α} :
    other ∈ (table.insert name value).names ↔ other = name ∨ other ∈ table.names := by
  unfold names
  rw [insertEntries, namesOfPlace]
  split
  · rename_i known
    exact ⟨Or.inr, fun either => either.elim (fun same => same ▸ known) id⟩
  · rw [List.mem_append, List.mem_singleton, or_comm]

theorem insertAllNew {table : Table α} {entries : List (String × α)} (distinct : (entries.map Prod.fst).Nodup)
    (new : ∀ entry ∈ entries, entry.1 ∉ table.names) : (table.insertAll entries).entries = table.entries ++ entries := by
  induction entries generalizing table with
  | nil => exact (List.append_nil _).symm
  | cons entry rest ih =>
    obtain ⟨first, later⟩ := List.nodup_cons.mp distinct
    have still : ∀ other ∈ rest, other.1 ∉ (table.insert entry.1 entry.2).names := by
      intro other member known
      rcases memNamesInsert.mp known with same | before
      · exact first (List.mem_map.mpr ⟨other, member, same⟩)
      · exact new other (List.mem_cons_of_mem _ member) before
    rw [insertAll, List.foldl_cons, ← insertAll, ih later still, insertEntries,
      placeAbsent entry.2 (new entry List.mem_cons_self), List.append_assoc, List.singleton_append]

theorem eraseAbsent {table : Table α} {name : String} (h : name ∉ table.names) : table.erase name = table := by
  refine entriesInjective (List.filter_eq_self.mpr fun entry member => ?_)
  simpa using fun same => h (List.mem_map.mpr ⟨entry, member, same⟩)

theorem entriesErase (table : Table α) (name : String) :
    (table.erase name).entries = table.entries.filter fun entry => entry.1 ≠ name := rfl

theorem entriesEraseAll (table : Table α) (names : List String) :
    (names.foldl erase table).entries = table.entries.filter fun entry => entry.1 ∉ names := by
  induction names generalizing table with
  | nil => exact (List.filter_eq_self.mpr fun _ _ => by simp).symm
  | cons name names ih =>
    rw [List.foldl_cons, ih, entriesErase, List.filter_filter]
    exact List.filter_congr fun entry _ => by simp [Bool.and_comm]

theorem namesInsertAll (table : Table α) (entries : List (String × α)) :
    (table.insertAll entries).names =
      table.names ++ ((entries.map Prod.fst).filter fun name => name ∉ table.names).eraseDups := by
  induction entries generalizing table with
  | nil => exact (List.append_nil _).symm
  | cons entry rest ih =>
    have names : (table.insert entry.1 entry.2).names =
        if entry.1 ∈ table.names then table.names else table.names ++ [entry.1] :=
      namesOfPlace entry.1 entry.2 table.entries
    rw [insertAll, List.foldl_cons, ← insertAll, ih, names, List.map_cons]
    split
    · rename_i known
      rw [List.filter_cons_of_neg (by simpa using known)]
    · rename_i absent
      rw [List.filter_cons_of_pos (by simpa using absent), List.eraseDups_cons, List.filter_filter, List.append_assoc,
        List.singleton_append]
      refine congrArg (fun later => table.names ++ entry.1 :: List.eraseDups later) (List.filter_congr fun name _ => ?_)
      simp only [List.mem_append, List.mem_singleton, not_or, Bool.decide_and, decide_not, Bool.and_comm]
      rfl

theorem namesOfList (entries : List (String × α)) : (ofList entries).names = (entries.map Prod.fst).eraseDups := by
  have plain : (entries.map Prod.fst).filter (fun name => name ∉ (empty : Table α).names) = entries.map Prod.fst :=
    List.filter_eq_self.mpr fun _ _ => rfl
  rw [ofList, namesInsertAll, plain]
  rfl

theorem findInsert (table : Table α) (name other : String) (value : α) :
    (table.insert name value).find? other = if other = name then some value else table.find? other := by
  unfold find?
  rw [insertEntries]
  induction table.entries with
  | nil =>
    rw [place, List.lookup_cons]
    by_cases same : other = name
    · rw [if_pos same, beq_iff_eq.mpr same]
    · rw [if_neg same, beq_false_of_ne same]
  | cons entry rest ih =>
    obtain ⟨known, old⟩ := entry
    unfold place
    split
    · rename_i here
      cases here
      rw [List.lookup_cons, List.lookup_cons]
      by_cases same : other = known
      · rw [if_pos same, beq_iff_eq.mpr same]
      · rw [if_neg same, beq_false_of_ne same]
    · rename_i elsewhere
      rw [List.lookup_cons, List.lookup_cons, ih]
      by_cases same : other = name
      · rw [beq_false_of_ne fun also => elsewhere (also.symm.trans same), if_pos same]
      · rw [if_neg same, if_neg same]

theorem findInsertOthers {entries : List (String × α)} {name : String} (absent : name ∉ entries.map Prod.fst)
    (table : Table α) : (table.insertAll entries).find? name = table.find? name := by
  induction entries generalizing table with
  | nil => rfl
  | cons entry rest ih =>
    simp only [List.map_cons, List.mem_cons, not_or] at absent
    rw [insertAll, List.foldl_cons, ← insertAll, ih absent.2, findInsert, if_neg absent.1]

theorem findInsertLast {before after : List (String × α)} {name : String} (value : α)
    (last : name ∉ after.map Prod.fst) (table : Table α) :
    (table.insertAll (before ++ (name, value) :: after)).find? name = some value := by
  rw [insertAll, List.foldl_append, List.foldl_cons, ← insertAll, ← insertAll, findInsertOthers last, findInsert,
    if_pos rfl]

end Table
end Templating
