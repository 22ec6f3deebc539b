/-!
# Sorted dictionaries

A dictionary maps texts to values and lists its entries in ascending order of their keys, each key
once. Two dictionaries with the same entries are therefore equal.
-/

namespace TreeLint

/-- Entries in strictly ascending order of their keys. -/
structure Dict (β : Type) where
  entries : List (String × β)
  sorted : entries.Pairwise (·.1 < ·.1)

namespace Dict

variable {β : Type}

instance [DecidableEq β] : DecidableEq (Dict β) := fun first second =>
  decidable_of_iff (first.entries = second.entries) <| by
    cases first; cases second; simp

/-- The dictionary without entries. -/
def empty : Dict β :=
  ⟨[], .nil⟩

/-- Puts an entry at its place among sorted entries, replacing one with the same key. -/
def insertEntry (key : String) (value : β) : List (String × β) → List (String × β)
  | [] => [(key, value)]
  | entry :: entries =>
      if key < entry.1 then (key, value) :: entry :: entries
      else if key = entry.1 then (key, value) :: entries
      else entry :: insertEntry key value entries

theorem mem_insertEntry {key : String} {value : β} {entries : List (String × β)}
    {entry : String × β} (member : entry ∈ insertEntry key value entries) :
    entry = (key, value) ∨ entry ∈ entries := by
  induction entries with
  | nil => simpa [insertEntry] using member
  | cons head tail ih =>
      simp only [insertEntry] at member
      split at member
      · simpa using member
      · split at member
        · rcases List.mem_cons.1 member with found | found
          · exact .inl found
          · exact .inr (List.mem_cons_of_mem _ found)
        · rcases List.mem_cons.1 member with found | found
          · exact .inr (by simp [found])
          · exact (ih found).imp_right (List.mem_cons_of_mem _)

theorem sorted_insertEntry {key : String} {value : β} {entries : List (String × β)}
    (sorted : entries.Pairwise (·.1 < ·.1)) :
    (insertEntry key value entries).Pairwise (·.1 < ·.1) := by
  induction entries with
  | nil => simp [insertEntry]
  | cons head tail ih =>
      obtain ⟨below, sortedTail⟩ := List.pairwise_cons.1 sorted
      simp only [insertEntry]
      split
      · next before =>
          refine List.pairwise_cons.2 ⟨fun entry member => ?_, sorted⟩
          rcases List.mem_cons.1 member with rfl | member
          · exact before
          · exact String.lt_trans before (below entry member)
      · next notBefore =>
          split
          · next same =>
              exact List.pairwise_cons.2 ⟨fun entry member => same ▸ below entry member, sortedTail⟩
          · next different =>
              refine List.pairwise_cons.2 ⟨fun entry member => ?_, ih sortedTail⟩
              rcases mem_insertEntry member with rfl | member
              · exact String.not_le.1 fun le =>
                  different (String.le_antisymm le (String.not_lt.1 notBefore))
              · exact below entry member

/-- The dictionary with an entry added, or replaced if its key is present. -/
def insert (dict : Dict β) (key : String) (value : β) : Dict β :=
  ⟨insertEntry key value dict.entries, sorted_insertEntry dict.sorted⟩

/-- The value of a key. -/
def find? (dict : Dict β) (key : String) : Option β :=
  dict.entries.lookup key

theorem lookup_entry {α : Type} [DecidableEq α] (entry : α × β) (entries : List (α × β))
    (key : α) :
    (entry :: entries).lookup key = if key = entry.1 then some entry.2 else entries.lookup key := by
  rw [List.lookup_cons]
  by_cases same : key = entry.1
  · rw [same, beq_self_eq_true, if_pos rfl]
  · rw [beq_eq_false_iff_ne.mpr same, if_neg same]

/-- Dropping the entries of a key leaves the values of the others. -/
theorem lookup_filter_of_ne {α : Type} [DecidableEq α] {key other : α} (different : other ≠ key)
    (entries : List (α × β)) :
    (entries.filter (·.1 ≠ key)).lookup other = entries.lookup other := by
  induction entries with
  | nil => rfl
  | cons entry entries ih =>
      rw [List.filter_cons, lookup_entry]
      by_cases same : entry.1 = key
      · have apart : other ≠ entry.1 := by
          rw [same]
          exact different
        rw [if_neg (not_not_intro same ∘ of_decide_eq_true), ih, if_neg apart]
      · rw [if_pos (decide_eq_true same), lookup_entry, ih]

theorem lookup_insertEntry (key : String) (value : β) (entries : List (String × β))
    (other : String) : (insertEntry key value entries).lookup other =
      if other = key then some value else entries.lookup other := by
  induction entries with
  | nil => exact lookup_entry (key, value) [] other
  | cons entry entries ih =>
      rw [insertEntry]
      split
      · exact lookup_entry ..
      · split
        · next same =>
            rw [lookup_entry, lookup_entry, ← same]
            split <;> rfl
        · next different =>
            rw [lookup_entry, ih, lookup_entry]
            split
            · next here => rw [here, if_neg (Ne.symm different)]
            · rfl

/-- An insertion changes the value of its key and of no other. -/
theorem find?_insert (dict : Dict β) (key : String) (value : β) (other : String) :
    (dict.insert key value).find? other = if other = key then some value else dict.find? other :=
  lookup_insertEntry key value dict.entries other

/-- The dictionary with entries added one after the other. -/
def insertAll (dict : Dict β) (entries : List (String × β)) : Dict β :=
  entries.foldl (fun dict entry => dict.insert entry.1 entry.2) dict

/-- The dictionary of the entries, where the last entry of a key counts. -/
def ofList (entries : List (String × β)) : Dict β :=
  empty.insertAll entries

theorem insertEntry_of_below {key : String} {value : β} {entries : List (String × β)}
    (below : ∀ entry ∈ entries, entry.1 < key) :
    insertEntry key value entries = entries ++ [(key, value)] := by
  induction entries with
  | nil => rfl
  | cons entry entries ih =>
      have before := below entry List.mem_cons_self
      have notBefore : ¬ key < entry.1 := String.lt_asymm before
      have different : key ≠ entry.1 := fun same => String.lt_irrefl key (same ▸ before)
      rw [insertEntry, if_neg notBefore, if_neg different,
        ih fun other member => below other (List.mem_cons_of_mem _ member), List.cons_append]

theorem ext {first second : Dict β} (same : first.entries = second.entries) : first = second := by
  cases first
  cases second
  cases same
  rfl

theorem entries_insertAll {dict : Dict β} {entries : List (String × β)}
    (sorted : (dict.entries ++ entries).Pairwise (·.1 < ·.1)) :
    (dict.insertAll entries).entries = dict.entries ++ entries := by
  induction entries generalizing dict with
  | nil => exact (List.append_nil _).symm
  | cons entry entries ih =>
      have below : ∀ other ∈ dict.entries, other.1 < entry.1 := fun other member =>
        (List.pairwise_append.1 sorted).2.2 other member entry List.mem_cons_self
      have inserted : (dict.insert entry.1 entry.2).entries = dict.entries ++ [entry] :=
        insertEntry_of_below below
      have sortedToo : ((dict.insert entry.1 entry.2).entries ++ entries).Pairwise (·.1 < ·.1) := by
        rw [inserted, List.append_assoc]
        exact sorted
      change ((dict.insert entry.1 entry.2).insertAll entries).entries = _
      rw [ih sortedToo, inserted, List.append_assoc]
      rfl

/-- A dictionary is the one of its entries. -/
theorem ofList_entries (dict : Dict β) : ofList dict.entries = dict :=
  ext (entries_insertAll dict.sorted)

end Dict

end TreeLint
