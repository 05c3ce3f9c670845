/-!
# Association lists in insertion order

A list of pairs in which each key stands once, read as a finite map that remembers the order in
which its keys first came. Inserting under a key that is present replaces the value and keeps the
key's place. Reading is `List.lookup`.
-/

namespace SchemaCompiler.Association

variable {κ α : Type} [BEq κ]

/-- Sets the value of a key: in place when the key is present, else at the end. -/
def insert (key : κ) (value : α) : List (κ × α) → List (κ × α)
  | [] => [(key, value)]
  | (k, v) :: rest => if k == key then (k, value) :: rest else (k, v) :: insert key value rest

/-- The pairs inserted one after another into a map. -/
def insertAll (entries : List (κ × α)) (pairs : List (κ × α)) : List (κ × α) :=
  pairs.foldl (fun acc pair => insert pair.1 pair.2 acc) entries

/-- The map of a list of pairs, in which the last value of a repeated key counts. -/
def ofPairs (pairs : List (κ × α)) : List (κ × α) := insertAll [] pairs

/-- Whether a key is present. -/
def contains (key : κ) (entries : List (κ × α)) : Bool := entries.any (·.1 == key)

/-- The keys, in order. -/
def keys (entries : List (κ × α)) : List κ := entries.map (·.1)

/-- The values, in the order of their keys. -/
def values (entries : List (κ × α)) : List α := entries.map (·.2)

section Lemmas

variable [LawfulBEq κ] {key other : κ} {value : α} {entries : List (κ × α)}

@[simp] theorem lookup_insert_self : (insert key value entries).lookup key = some value := by
  induction entries with
  | nil => simp [insert]
  | cons entry rest ih =>
    obtain ⟨k, v⟩ := entry
    by_cases h : k = key
    · simp [insert, h]
    · have h' : (key == k) = false := by simpa using fun e => h e.symm
      simp [insert, h, List.lookup_cons, h', ih]

theorem lookup_insert_of_ne (h : other ≠ key) :
    (insert key value entries).lookup other = entries.lookup other := by
  have h' : (other == key) = false := by simpa using h
  induction entries with
  | nil => simp [insert, List.lookup_cons, h']
  | cons entry rest ih =>
    obtain ⟨k, v⟩ := entry
    by_cases hk : k = key
    · subst hk
      simp [insert, List.lookup_cons, h']
    · simp [insert, hk, List.lookup_cons, ih]

theorem insert_of_not_mem (h : key ∉ keys entries) :
    insert key value entries = entries ++ [(key, value)] := by
  induction entries with
  | nil => rfl
  | cons entry rest ih =>
    obtain ⟨k, v⟩ := entry
    obtain ⟨hne, hrest⟩ := not_or.mp (fun hor => h (List.mem_cons.mpr hor))
    have hk : (k == key) = false := by simpa using fun e => hne e.symm
    simp [insert, hk, ih hrest]

/-- Pairs with new keys are added at the end, in order. -/
theorem insertAll_of_nodup {pairs : List (κ × α)} (h : (keys (entries ++ pairs)).Nodup) :
    insertAll entries pairs = entries ++ pairs := by
  induction pairs generalizing entries with
  | nil => rw [List.append_nil]; rfl
  | cons pair pairs ih =>
    obtain ⟨k, v⟩ := pair
    have hnew : k ∉ keys entries := by
      intro hmem
      simp only [keys, List.map_append, List.map_cons, List.nodup_append] at h
      exact h.2.2 k hmem k List.mem_cons_self rfl
    have hstep : insertAll entries ((k, v) :: pairs) = insertAll (entries ++ [(k, v)]) pairs := by
      rw [← insert_of_not_mem hnew]
      rfl
    rw [hstep, ih (by simpa using h), List.append_assoc]
    rfl

end Lemmas

end SchemaCompiler.Association
