/-!
# Dictionaries

Values under distinct keys, in the order in which the keys first came.
-/

namespace ReverseProxy

structure Dictionary (α : Type) where
  entries : List (String × α)
  nodup : (entries.map Prod.fst).Nodup

namespace Dictionary

variable {α : Type}

instance [DecidableEq α] : DecidableEq (Dictionary α) := fun left right =>
  decidable_of_iff (left.entries = right.entries) ⟨fun h => by
    cases left
    cases right
    simpa using h, fun h => h ▸ rfl⟩

def empty : Dictionary α := ⟨[], List.nodup_nil⟩

instance : EmptyCollection (Dictionary α) := ⟨empty⟩

instance : Inhabited (Dictionary α) := ⟨empty⟩

def keys (dictionary : Dictionary α) : List String := dictionary.entries.map Prod.fst

def size (dictionary : Dictionary α) : Nat := dictionary.entries.length

def get? (dictionary : Dictionary α) (key : String) : Option α := dictionary.entries.lookup key

def contains (dictionary : Dictionary α) (key : String) : Bool := dictionary.keys.contains key

def push (dictionary : Dictionary α) (key : String) (value : α) (isNew : key ∉ dictionary.keys) :
    Dictionary α :=
  ⟨dictionary.entries ++ [(key, value)], by
    rw [List.map_append, List.nodup_append]
    refine ⟨dictionary.nodup, by simp, ?_⟩
    rintro other member _ (_ | ⟨_, ⟨⟩⟩) rfl
    exact isNew member⟩

/-- The value takes the place of an earlier one under its key, if there is one. -/
def insert (dictionary : Dictionary α) (key : String) (value : α) : Dictionary α :=
  if isNew : key ∉ dictionary.keys then dictionary.push key value isNew
  else
    ⟨dictionary.entries.map fun entry => if entry.1 = key then (key, value) else entry, by
      have same : (fun entry : String × α => (if entry.1 = key then (key, value) else entry).1) =
          Prod.fst := by
        funext entry
        split
        · next equal => exact equal.symm
        · rfl
      rw [List.map_map]
      show (dictionary.entries.map
        fun entry => (if entry.1 = key then (key, value) else entry).1).Nodup
      rw [same]
      exact dictionary.nodup⟩

def erase (dictionary : Dictionary α) (key : String) : Dictionary α :=
  ⟨dictionary.entries.filter fun entry => entry.1 ≠ key,
    dictionary.nodup.sublist ((List.filter_sublist).map Prod.fst)⟩

/-- Of several values under one key the last counts. -/
def ofList (pairs : List (String × α)) : Dictionary α :=
  pairs.foldl (fun dictionary pair => dictionary.insert pair.1 pair.2) ∅

theorem eq_of_entries {left right : Dictionary α} (hentries : left.entries = right.entries) :
    left = right := by
  cases left
  cases right
  cases hentries
  rfl

@[simp]
theorem entries_push (dictionary : Dictionary α) (key : String) (value : α)
    (isNew : key ∉ dictionary.keys) :
    (dictionary.push key value isNew).entries = dictionary.entries ++ [(key, value)] := rfl

theorem keys_push (dictionary : Dictionary α) (key : String) (value : α)
    (isNew : key ∉ dictionary.keys) :
    (dictionary.push key value isNew).keys = dictionary.keys ++ [key] := List.map_append

theorem keys_erase (dictionary : Dictionary α) (key : String) :
    (dictionary.erase key).keys = dictionary.keys.filter fun other => other ≠ key := by
  rw [keys, keys, List.filter_map]
  rfl

theorem not_mem_keys_erase (dictionary : Dictionary α) (key : String) :
    key ∉ (dictionary.erase key).keys := by
  simp [keys, erase]

end Dictionary

end ReverseProxy
