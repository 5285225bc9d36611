import TenantSizing.Mode.Unchecked
import TenantSizing.Proofs.Views

namespace TenantSizing

namespace Mode

variable {μ : Type} {independent : μ → Bool}

/-- Every mode that tenants declare for a key, in turn. -/
def declared (tenants : List (Keyed μ)) (key : String) : List μ :=
  tenants.flatMap fun modes => Keyed.valuesAt modes key

theorem mem_declared {tenants : List (Keyed μ)} {key : String} {mode : μ} :
    mode ∈ declared tenants key ↔ ∃ modes ∈ tenants, (key, mode) ∈ modes := by
  simp only [declared, List.mem_flatMap, Keyed.mem_valuesAt]

/-- A mode that is held stays if it is independent. Otherwise it gives way to the first independent
one. -/
theorem foldl_prefer_some (modes : List μ) (held : μ) :
    modes.foldl (prefer independent) (some held) =
      some (if independent held then held else (modes.find? independent).getD held) := by
  induction modes generalizing held with
  | nil => simp
  | cons mode rest ih =>
    rw [List.foldl_cons, prefer, List.find?_cons]
    cases hh : independent held with
    | true => simp [ih, hh]
    | false => cases hm : independent mode <;> simp [ih, hh, hm]

/-- Of the modes declared for a key the first independent one counts, or else the first one. -/
theorem foldl_prefer_none (modes : List μ) :
    modes.foldl (prefer independent) none = (modes.find? independent).or modes.head? := by
  cases modes with
  | nil => rfl
  | cons mode rest =>
    rw [List.foldl_cons, prefer, foldl_prefer_some, List.find?_cons]
    cases hm : independent mode with
    | true => simp
    | false => cases rest.find? independent <;> simp

theorem lookup_gathered (tenants : List (Keyed μ)) (key : String) :
    (tenants.foldl (merge independent) []).lookup key =
      ((declared tenants key).find? independent).or (declared tenants key).head? := by
  rw [lookup_foldl_merge]
  exact foldl_prefer_none (declared tenants key)

/-- A key is gathered if some tenant declares a mode for it. -/
theorem mem_keys_gathered {tenants : List (Keyed μ)} {key : String} :
    key ∈ Keyed.keys (tenants.foldl (merge independent) []) ↔
      ∃ modes ∈ tenants, key ∈ Keyed.keys modes := by
  have some_declared : key ∈ Keyed.keys (tenants.foldl (merge independent) []) ↔
      declared tenants key ≠ [] := by
    rw [← Keyed.has_iff_mem_keys, Keyed.has, lookup_gathered]
    cases declared tenants key <;> simp
  rw [some_declared]
  constructor
  · intro hn
    obtain ⟨mode, hm⟩ := List.exists_mem_of_ne_nil _ hn
    obtain ⟨modes, ht, he⟩ := mem_declared.mp hm
    exact ⟨modes, ht, List.mem_map.mpr ⟨_, he, rfl⟩⟩
  · rintro ⟨modes, ht, hk⟩
    obtain ⟨⟨_, mode⟩, he, rfl⟩ := List.mem_map.mp hk
    exact List.ne_nil_of_mem (mem_declared.mpr ⟨modes, ht, he⟩)

/-- A gathered mode is independent if any mode declared for its key is. -/
theorem any_lookup_gathered (independent : μ → Bool) (tenants : List (Keyed μ)) (key : String) :
    ((tenants.foldl (merge independent) []).lookup key).any independent =
      (declared tenants key).any independent := by
  rw [lookup_gathered]
  cases hf : (declared tenants key).find? independent with
  | some mode =>
    have found := List.find?_some hf
    have any := List.any_eq_true.mpr ⟨mode, List.mem_of_find?_eq_some hf, found⟩
    simp [found, any]
  | none =>
    have shared := List.find?_eq_none.mp hf
    rw [List.any_eq_false.mpr shared]
    cases hd : (declared tenants key).head? with
    | none => rfl
    | some mode => simpa using shared mode (List.mem_of_mem_head? hd)

/-- Declaring a mode changes nothing if one is held that is independent whenever the new one is. -/
theorem declare_of_held {modes : Keyed μ} {key : String} {mode held : μ}
    (hl : modes.lookup key = some held) (hi : independent mode = true → independent held = true) :
    declare independent modes key mode = modes := by
  rw [declare, hl]
  cases hm : independent mode with
  | false => rfl
  | true => simp [hi hm]

theorem merge_again {tenants : List (Keyed μ)} {modes : Keyed μ} (hm : modes ∈ tenants) :
    merge independent (tenants.foldl (merge independent) []) modes =
      tenants.foldl (merge independent) [] := by
  refine List.foldlRecOn
    (motive := fun gathered => gathered = tenants.foldl (merge independent) []) _ _ rfl ?_
  rintro _ rfl ⟨key, mode⟩ he
  have there : mode ∈ declared tenants key := mem_declared.mpr ⟨modes, hm, he⟩
  have gathered := any_lookup_gathered independent tenants key
  cases hl : (tenants.foldl (merge independent) []).lookup key with
  | none =>
    have known : key ∈ Keyed.keys (tenants.foldl (merge independent) []) :=
      mem_keys_gathered.mpr ⟨modes, hm, List.mem_map.mpr ⟨_, he, rfl⟩⟩
    rw [← Keyed.has_iff_mem_keys, Keyed.has, hl] at known
    cases known
  | some held =>
    refine declare_of_held hl fun hi => ?_
    rw [hl, List.any_eq_true.mpr ⟨mode, there, hi⟩] at gathered
    exact gathered

/-- An independent mode stays, whatever is declared behind it. -/
theorem lookup_gathered_append {tenants : List (Keyed μ)} {key : String} {mode : μ}
    (hl : (tenants.foldl (merge independent) []).lookup key = some mode)
    (hi : independent mode = true) (more : List (Keyed μ)) :
    ((tenants ++ more).foldl (merge independent) []).lookup key = some mode := by
  rw [List.foldl_append, lookup_foldl_merge, hl, foldl_prefer_some, if_pos hi]

namespace Unchecked

/-- Modes that are all texts. -/
def ofModes (modes : Keyed String) : Unchecked :=
  modes.map fun entry => (.text entry.1, .text entry.2)

theorem agrees_texts (key other : String) :
    (Scalar.text key).agrees (.text other) = decide (key = other) := rfl

theorem lookup?_ofModes (modes : Keyed String) (key : String) :
    (ofModes modes).lookup? (.text key) = (modes.lookup key).map Tree.text := by
  induction modes with
  | nil => rfl
  | cons entry rest ih =>
    obtain ⟨k, mode⟩ := entry
    rw [lookup?] at ih ⊢
    rw [ofModes, List.map_cons, List.find?_cons, agrees_texts, Keyed.lookup_cons]
    by_cases hk : k = key
    · simp [hk]
    · rw [if_neg (Ne.symm hk), decide_eq_false hk]
      exact ih

theorem insert_ofModes (modes : Keyed String) (key mode : String) :
    (ofModes modes).insert (.text key) (.text mode) = ofModes (Keyed.insert modes key mode) := by
  induction modes with
  | nil => rfl
  | cons entry rest ih =>
    obtain ⟨k, held⟩ := entry
    rw [ofModes, List.map_cons, insert, agrees_texts, Keyed.insert]
    by_cases hk : k = key
    · simp [hk, ofModes]
    · rw [if_neg (by simpa using hk), if_neg hk]
      exact congrArg _ ih

theorem declare_ofModes (independent : List String) (modes : Keyed String) (key mode : String) :
    declare independent (ofModes modes) key (.text mode) =
      .ok (ofModes (Mode.declare (isIndependent · independent) modes key mode)) := by
  rw [declare, lookup?_ofModes, Mode.declare]
  cases modes.lookup key with
  | none => simp [insert_ofModes]
  | some held =>
    by_cases hm : mode ∈ independent <;> by_cases hh : held ∈ independent <;>
      simp [treeIsIndependent, isIndependent, hm, hh, insert_ofModes, bind, Except.bind]

/-- Merging maps of texts is merging modes. -/
theorem merge_toTree (independent : List String) (held incoming : Keyed String) :
    merge (toTree held) (toTree incoming) independent =
      .ok (ofModes (Mode.merge (isIndependent · independent) held incoming)) := by
  have start : ofTree (toTree held) = .ok (ofModes held) := by
    simp [ofTree, toTree, ofModes, Function.comp_def]
  rw [merge, start]
  show (incoming.map fun entry => (entry.1, Tree.text entry.2)).foldlM
    (fun modes entry => declare independent modes entry.1 entry.2) (ofModes held) = _
  induction incoming generalizing held with
  | nil => rfl
  | cons entry rest ih =>
    rw [List.map_cons, List.foldlM_cons, declare_ofModes]
    exact ih _ (by simp [ofTree, toTree, ofModes, Function.comp_def])

end Unchecked

end Mode

open Mode

/-- What is gathered from tenants in turn, for any set of independent modes: exactly the keys that
some tenant declares, each with the first independent mode declared for it, or else with the first
mode. Which keys are independent does not depend on the order of the tenants; adding one of them
again changes nothing; and an independent mode outlasts whatever is added. Modes that nobody has
checked are merged alike where they are texts. -/
theorem independent_modes_win (independent : List String) (tenants : List (Keyed String)) :
    let wins := fun mode => isIndependent mode independent
    let gathered := tenants.foldl (Mode.merge wins) []
    (∀ key, key ∈ Keyed.keys gathered ↔ ∃ modes ∈ tenants, key ∈ Keyed.keys modes) ∧
      (∀ key, gathered.lookup key =
        ((declared tenants key).find? wins).or (declared tenants key).head?) ∧
      (∀ others : List (Keyed String), others.Perm tenants → ∀ key,
        ((others.foldl (Mode.merge wins) []).lookup key).any wins =
          (gathered.lookup key).any wins) ∧
      (∀ modes ∈ tenants, Mode.merge wins gathered modes = gathered) ∧
      (∀ key mode, gathered.lookup key = some mode → wins mode = true → ∀ more,
        ((tenants ++ more).foldl (Mode.merge wins) []).lookup key = some mode) ∧
      ∀ held incoming : Keyed String,
        Unchecked.merge (toTree held) (toTree incoming) independent =
          .ok (Unchecked.ofModes (Mode.merge wins held incoming)) := by
  intro wins gathered
  refine ⟨fun key => mem_keys_gathered, lookup_gathered tenants, fun others ho key => ?_,
    fun modes hm => merge_again hm, fun key mode hl hi => lookup_gathered_append hl hi,
    Unchecked.merge_toTree independent⟩
  rw [any_lookup_gathered, any_lookup_gathered]
  exact (ho.flatMap_right _).any_eq

/-- Three tenants: one leaves `db` to a controller that the others do not name first, and no two of
them agree on `web`. -/
def Sample.divided : List (Keyed String) :=
  [[("web", "manual"), ("db", "vpa")], [("db", "default"), ("web", "turbo")],
    [("web", "vpa"), ("ui", "manual")]]

theorem independent_modes_win_divided :
    let gathered := Sample.divided.foldl (Mode.merge fun mode =>
      isIndependent mode independentModes) []
    gathered = [("web", "turbo"), ("db", "vpa"), ("ui", "manual")] ∧
      ((Sample.divided.reverse.foldl (Mode.merge fun mode =>
        isIndependent mode independentModes) []).lookup "web").any
          (fun mode => isIndependent mode independentModes) = true ∧
      Mode.merge (fun mode => isIndependent mode independentModes) gathered
        [("db", "default"), ("web", "turbo")] = gathered ∧
      ((Sample.divided ++ [[("web", "vpa"), ("db", "default")]]).foldl (Mode.merge fun mode =>
        isIndependent mode independentModes) []).lookup "web" = some "turbo" := by
  obtain ⟨-, -, ordered, again, lasting, -⟩ :=
    independent_modes_win independentModes Sample.divided
  refine ⟨by decide, ?_, again _ (by decide), lasting "web" "turbo" (by decide) (by decide) _⟩
  rw [ordered _ (List.reverse_perm _)]
  decide

end TenantSizing
