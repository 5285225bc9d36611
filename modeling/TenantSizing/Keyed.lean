namespace TenantSizing

/-- Pairs of a key and its value. A key that is there twice counts by its first pair. -/
abbrev Keyed (α : Type) := List (String × α)

namespace Keyed

variable {α : Type}

/-- Sets a key: in its place if it is there, else behind the others. -/
def insert (entries : Keyed α) (key : String) (value : α) : Keyed α :=
  match entries with
  | [] => [(key, value)]
  | (k, v) :: rest => if k = key then (k, value) :: rest else (k, v) :: insert rest key value

def erase (entries : Keyed α) (key : String) : Keyed α :=
  entries.filter fun entry => entry.1 ≠ key

def has (entries : Keyed α) (key : String) : Bool :=
  (entries.lookup key).isSome

def keys (entries : Keyed α) : List String :=
  entries.map Prod.fst

/-- The entries whose keys are not among those of `others`. -/
def without (entries others : Keyed α) : Keyed α :=
  entries.filter fun entry => !has others entry.1

@[simp] theorem lookup_cons (k key : String) (value : α) (rest : Keyed α) :
    ((k, value) :: rest : Keyed α).lookup key =
      if key = k then some value else rest.lookup key := by
  by_cases h : key = k
  · simp [h]
  · simp [List.lookup_cons, h, beq_eq_false_iff_ne.mpr h]

theorem lookup_insert (entries : Keyed α) (key other : String) (value : α) :
    (insert entries key value).lookup other =
      if other = key then some value else entries.lookup other := by
  induction entries with
  | nil => simp [insert]
  | cons entry rest ih =>
    obtain ⟨k, v⟩ := entry
    by_cases hk : k = key
    · subst hk
      by_cases h : other = k <;> simp [insert, h]
    · by_cases h : other = k
      · subst h
        simp [insert, hk]
      · simp [insert, hk, h, ih]

theorem keys_insert_of_mem {entries : Keyed α} {key : String} {value : α}
    (h : key ∈ keys entries) : keys (insert entries key value) = keys entries := by
  induction entries with
  | nil => simp [keys] at h
  | cons entry rest ih =>
    obtain ⟨k, v⟩ := entry
    by_cases hk : k = key
    · simp [insert, hk, keys]
    · have later : key ∈ keys rest := by
        rcases List.mem_cons.mp h with first | later
        · exact absurd first.symm hk
        · exact later
      have tail := ih later
      simp only [keys] at tail ⊢
      simp [insert, hk, tail]

theorem lookup_filter (p : String → Bool) (entries : Keyed α) (key : String) :
    (entries.filter fun entry => p entry.1).lookup key =
      if p key then entries.lookup key else none := by
  induction entries with
  | nil => simp
  | cons entry rest ih =>
    obtain ⟨k, v⟩ := entry
    by_cases hk : key = k
    · subst hk
      cases hp : p key <;> simp [hp, ih]
    · cases hp : p k <;> simp [hp, hk, ih]

theorem lookup_erase (entries : Keyed α) (key other : String) :
    (erase entries key).lookup other = if other = key then none else entries.lookup other := by
  rw [erase, lookup_filter fun k => k ≠ key]
  by_cases h : other = key <;> simp [h]

theorem has_iff_mem_keys {entries : Keyed α} {key : String} :
    has entries key = true ↔ key ∈ keys entries := by
  induction entries with
  | nil => simp [has, keys]
  | cons entry rest ih =>
    obtain ⟨k, v⟩ := entry
    simp only [has, keys] at ih ⊢
    by_cases h : key = k <;> simp [h, ih]

theorem lookup_append (entries more : Keyed α) (key : String) :
    (entries ++ more : Keyed α).lookup key = (entries.lookup key).or (more.lookup key) := by
  induction entries with
  | nil => simp
  | cons entry rest ih =>
    obtain ⟨k, v⟩ := entry
    by_cases h : key = k <;> simp [h, ih]

/-- What is there already hides what others hold at its keys. -/
theorem lookup_without (entries others : Keyed α) (key : String) :
    (without entries others).lookup key =
      if has others key then none else entries.lookup key := by
  rw [without, lookup_filter fun k => !has others k]
  cases has others key <;> simp

end Keyed

end TenantSizing
