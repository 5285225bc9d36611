import TenantSizing.Proofs.GatheredModes
import TenantSizing.Proofs.Interference

namespace TenantSizing

namespace Mode

variable {tenants : List (Keyed String)} {operand key : String}

/-- Whether modes leave an operand to an independent controller. -/
def leaves (modes : Keyed String) (operand : String) : Bool :=
  isIndependent (resolve fallback modes operand)

theorem leaves_of_lookup {modes : Keyed String} {mode : String}
    (h : modes.lookup operand = some mode) : leaves modes operand = isIndependent mode := by
  simp [leaves, resolve, h]

/-- The mode that nobody has declared is not independent, so a tenant-wide one has to be there. -/
theorem leaves_of_missing {modes : Keyed String} (h : modes.lookup operand = none) :
    leaves modes operand = (modes.lookup tenantWide).any isIndependent := by
  have none_declared : isIndependent fallback = false := by decide
  cases hw : modes.lookup tenantWide <;> simp [leaves, resolve, h, hw, none_declared]

/-- Tenants that have no key twice declare for a key what they hold there. -/
theorem declared_eq (distinct : ∀ modes ∈ tenants, (Keyed.keys modes).Nodup) (key : String) :
    declared tenants key = tenants.filterMap fun modes => modes.lookup key := by
  induction tenants with
  | nil => rfl
  | cons modes rest ih =>
    have tail := ih fun other ho => distinct other (List.mem_cons_of_mem _ ho)
    rw [declared, List.flatMap_cons, ← declared, tail,
      Keyed.valuesAt_eq (distinct modes (by simp))]
    cases hl : modes.lookup key <;> simp [hl]

/-- Some mode declared for a key is independent if a tenant holds such a one there. -/
theorem any_declared_iff (distinct : ∀ modes ∈ tenants, (Keyed.keys modes).Nodup) (key : String) :
    (declared tenants key).any isIndependent = true ↔
      ∃ modes ∈ tenants, (modes.lookup key).any isIndependent = true := by
  rw [declared_eq distinct, List.any_eq_true]
  constructor
  · rintro ⟨mode, hm, wins⟩
    obtain ⟨modes, ht, hl⟩ := List.mem_filterMap.mp hm
    exact ⟨modes, ht, by simpa [hl] using wins⟩
  · rintro ⟨modes, ht, held⟩
    cases hl : modes.lookup key with
    | none => simp [hl] at held
    | some mode => exact ⟨mode, List.mem_filterMap.mpr ⟨modes, ht, hl⟩, by simpa [hl] using held⟩

/-- Nothing is gathered for a key only if nothing is declared for it. -/
theorem lookup_gather_eq_none : (gather tenants).lookup key = none ↔ declared tenants key = [] := by
  rw [gather, lookup_gathered]
  cases declared tenants key <;> simp

/-- The modes that tenants declare for an operand decide, and the tenant-wide ones only where there
are none. -/
theorem leaves_gather (tenants : List (Keyed String)) (operand : String) :
    leaves (gather tenants) operand =
      if declared tenants operand = [] then (declared tenants tenantWide).any isIndependent
      else (declared tenants operand).any isIndependent := by
  cases hl : (gather tenants).lookup operand with
  | none =>
    rw [leaves_of_missing hl, if_pos (lookup_gather_eq_none.mp hl)]
    exact any_lookup_gathered _ tenants tenantWide
  | some mode =>
    have some_declared : declared tenants operand ≠ [] := by
      intro nothing
      rw [lookup_gather_eq_none.mpr nothing] at hl
      cases hl
    have gathered := any_lookup_gathered isIndependent tenants operand
    rw [← gather, hl] at gathered
    rw [leaves_of_lookup hl, if_neg some_declared, ← gathered, Option.any_some]

/-- Where no mode declared for the operand is independent, the first one counts. -/
theorem resolve_gather_of_shared {first : String} {rest : List String}
    (hd : declared tenants operand = first :: rest)
    (shared : ∀ mode ∈ declared tenants operand, isIndependent mode = false) :
    resolve fallback (gather tenants) operand = first := by
  have none_wins : (declared tenants operand).find? (fun mode => isIndependent mode) = none :=
    List.find?_eq_none.mpr fun mode hm => by simp [shared mode hm]
  have gathered : (gather tenants).lookup operand = some first := by
    rw [gather, lookup_gathered, none_wins, hd]
    rfl
  simp [resolve, gathered]

end Mode

open Mode

/-- Gathered modes leave an operand to a controller if some tenant alone does, unless modes are
declared for the operand itself and none of them is independent; then the first of these counts.
Modes read of a CommonService have no key twice. -/
theorem operand_modes_come_first (tenants : List (Keyed String))
    (distinct : ∀ modes ∈ tenants, (Keyed.keys modes).Nodup) (operand : String) :
    let own := tenants.filterMap fun modes => modes.lookup operand
    (leaves (gather tenants) operand = true ↔
        (∃ modes ∈ tenants, leaves modes operand = true) ∧
          (own = [] ∨ ∃ mode ∈ own, isIndependent mode = true)) ∧
      (∀ first rest, own = first :: rest → (∀ mode ∈ own, isIndependent mode = false) →
        resolve fallback (gather tenants) operand = first) ∧
      ∀ templates object contribution,
        (Contribution.read templates object).outcome = .ok contribution →
        (Keyed.keys contribution.modes).Nodup := by
  intro own
  have ours : declared tenants operand = own := declared_eq distinct operand
  refine ⟨?_, fun first rest ho shared => ?_, fun templates object contribution hr => ?_⟩
  · rw [leaves_gather, ours]
    by_cases nothing : own = []
    · -- The tenant-wide modes decide, of all tenants together as of each alone.
      have missing : ∀ modes ∈ tenants, modes.lookup operand = none :=
        List.filterMap_eq_nil_iff.mp nothing
      rw [if_pos nothing, any_declared_iff distinct, and_iff_left (.inl nothing)]
      refine exists_congr fun modes => and_congr_right fun ht => ?_
      rw [leaves_of_missing (missing modes ht)]
    · rw [if_neg nothing, List.any_eq_true]
      constructor
      · rintro ⟨mode, hm, wins⟩
        obtain ⟨modes, ht, hl⟩ := List.mem_filterMap.mp hm
        exact ⟨⟨modes, ht, (leaves_of_lookup hl).trans wins⟩, .inr ⟨mode, hm, wins⟩⟩
      · rintro ⟨-, none_own | some_wins⟩
        · exact absurd none_own nothing
        · exact some_wins
  · exact resolve_gather_of_shared (ours.trans ho) (ours ▸ shared)
  · rw [(Contribution.read_ok hr).2]
    exact Contribution.nodup_outline _ _

/-- One tenant leaves all of its operands to a controller, the next one takes `db` and `web` back,
and a third leaves `db` to a controller of its own. -/
def Sample.contest : List (Keyed String) :=
  [[("profileController", "turbo")], [("db", "default"), ("web", "manual")],
    [("web", "default"), ("db", "vpa")]]

theorem operand_modes_come_first_contested :
    leaves (gather Sample.contest) "db" = true ∧
      resolve fallback (gather Sample.contest) "web" = "manual" ∧
      leaves (gather Sample.contest) "ui" = true := by
  have distinct : ∀ modes ∈ Sample.contest, (Keyed.keys modes).Nodup := by decide
  obtain ⟨db, -⟩ := operand_modes_come_first Sample.contest distinct "db"
  obtain ⟨-, web, -⟩ := operand_modes_come_first Sample.contest distinct "web"
  obtain ⟨ui, -⟩ := operand_modes_come_first Sample.contest distinct "ui"
  exact ⟨db.mpr (by decide), web _ _ rfl (by decide), ui.mpr (by decide)⟩

/-- A CommonService that leaves all operands to a controller. -/
def Sample.automated : Tree :=
  .map [("metadata", .map [("name", .text "a")]),
    ("spec", .map [("profileController", .text "turbo")])]

/-- A CommonService that declares the default mode for `db`. -/
def Sample.manual : Tree :=
  .map [("metadata", .map [("name", .text "b")]),
    ("spec", .map [("services", .list [.map [("name", .text "db"),
      ("managementStrategy", .text "default")]])])]

/-- A tenant that leaves all of its operands to a controller loses one to the default mode that
another tenant declares for it. -/
theorem tenant_wide_mode_displaced :
    ∃ these those : Contribution,
      (Contribution.read none Sample.automated).outcome = .ok these ∧
      (Contribution.read none Sample.manual).outcome = .ok those ∧
      leaves these.modes "db" = true ∧ leaves those.modes "db" = false ∧
      leaves (gather [these.modes, those.modes]) "db" = false :=
  ⟨⟨"a", "", [], [("profileController", "turbo")]⟩,
    ⟨"b", "", [Contribution.normalized (.map [("name", .text "db")])], [("db", "default")]⟩,
    rfl, rfl, by decide, by decide, by decide⟩

end TenantSizing
