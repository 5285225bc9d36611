import TenantSizing.Proofs.Demands

namespace TenantSizing

open TenantSizing.Tree

/-- In a released tree, what is governed and reset by its key is a map. -/
theorem Tree.Conforms.isMap_of_at? {reset : List String} {rules : Entries} {tree value : Tree}
    {path : List String} {key : String} (h : Conforms (released reset) rules tree)
    (hg : (Tree.map rules).follow (path ++ [key]) ≠ .null) (hk : key ∈ reset)
    (ha : tree.at? ((path ++ [key]).map .key) = some value) : value.isMap = true := by
  induction path generalizing rules tree with
  | nil =>
    cases tree with
    | scalar _ => cases ha
    | list _ => cases ha
    | map entries =>
      have hl : entries.lookup key = some value := by
        simpa [at?_cons, child?] using ha
      have hallow := (conforms_map.mp h _ (Keyed.mem_of_lookup hl)).1
      have hr : (ruleAt rules key).isNull = false := by
        rw [Bool.eq_false_iff, ne_eq, isNull_iff]
        exact hg
      simpa [released, hr, hk] using hallow
  | cons first rest ih =>
    cases tree with
    | scalar _ => cases ha
    | list _ => cases ha
    | map entries =>
      rw [List.cons_append, List.map_cons, at?_cons, child?] at ha
      cases hl : entries.lookup first with
      | none =>
        rw [hl] at ha
        cases ha
      | some child =>
        rw [hl, Option.bind_some] at ha
        refine ih (conforms_map.mp h _ (Keyed.mem_of_lookup hl)).2 ?_ ha
        rw [follow_entries _ (by simp)]
        exact hg

/-- In every kind with rules of a service whose operand has an independent mode, nothing but maps is
found at governed paths whose last key is reset. -/
def Unmanaged (rules : RuleSet) (modes : Keyed String) (services : List Tree) : Prop :=
  ∀ service ∈ services,
    Mode.isIndependent (Mode.resolve Mode.fallback modes (service.get "name").string) = true →
    ∀ kind governing, rules.forKind? (.text (service.get "name").string) kind = some governing →
    ∀ path key value, (Tree.map governing).follow (path ++ [key]) ≠ .null → key ∈ resetKeys →
      (service.follow ["spec", kind]).at? ((path ++ [key]).map .key) = some value →
      value.isMap = true

/-- No managed field is left where an independent controller owns the sizing. Whatever the
OperandConfig, the tenants, the templates and the configs that triggered the reconcile contain, what
it stores is unmanaged under the modes gathered from the live tenants. A dry run is left out, as it
stores nothing. -/
theorem managed_fields_released {r : Reconciler} {job : Job Bool} {p q : Progress}
    {unchanged : Bool} (hj : job = r.shrink ∨ ∃ configs modes, job = r.update configs modes)
    (hd : r.dryRun = false) (h : Job.run job p = (.ok unchanged, q)) :
    ∃ config services rules demand contributions,
      q.cluster.config = some config ∧ config.follow ["spec", "services"] = .list services ∧
      RuleSet.read r.rules = .ok rules ∧
      Demand.From r rules p.cluster.tenants contributions demand ∧
      Unmanaged rules (Mode.gather (contributions.map Contribution.modes)) services := by
  obtain ⟨started, prepare, x, rfl⟩ : ∃ started prepare x, job = r.reconcile started prepare x := by
    rcases hj with rfl | ⟨configs, modes, rfl⟩
    · exact ⟨_, _, _, rfl⟩
    · exact ⟨_, _, _, rfl⟩
  obtain ⟨reading, prepared, _, _, stores⟩ := Reconciler.run_reconcile_ok h
  obtain ⟨contributions, hf⟩ := Reconciler.demanded_from reading.demanded
  have written := stores.written
  rw [if_neg (by simp [hd])] at written
  refine ⟨_, _, reading.rules, reading.demand, contributions, written,
    follow_withServices reading.listed, reading.parsed, hf, ?_⟩
  intro service hs hi kind governing hr path key value hg hk ha
  obtain ⟨before, _, rfl⟩ := List.mem_map.mp hs
  rw [get_name_applySummaryTo] at hi hr
  rw [follow_spec, lookup_applySummaryTo] at ha
  cases hl : (before.get "spec").entries.lookup kind with
  | none =>
    rw [hl] at ha
    cases path <;> cases ha
  | some current =>
    rw [hl] at ha
    rw [← hf.modes] at hi
    have conforms := Target.released_applyKind
      (targetOf_sound hf.summary x before) hi kind current
    have rules : (r.scope reading.rules).rulesOf (before.get "name").string kind = governing :=
      congrArg (Option.getD · []) hr
    refine conforms.isMap_of_at? (show (Tree.map ((r.scope reading.rules).rulesOf
      (before.get "name").string kind)).follow _ ≠ _ from ?_) hk ha
    rw [rules]
    exact hg

/-- A tenant that leaves its sizing to an autoscaler, although it asks for 3 replicas. -/
def Sample.owned : Progress :=
  start [("replicas", .int 2), ("image", .text "postgres")]
    [tenant "a" [("profileController", .text "turbo"),
      ("services", .list [service [("replicas", .int 3)]])]]

theorem managed_fields_released_owned :
    ∃ config services rules demand contributions,
      (Job.run (Sample.reconciler.update [Sample.service [("replicas", .int 3)]] (.map []))
        Sample.owned).2.cluster.config = some config ∧
      config.follow ["spec", "services"] = .list services ∧
      RuleSet.read Sample.reconciler.rules = .ok rules ∧
      Demand.From Sample.reconciler rules Sample.owned.cluster.tenants contributions demand ∧
      Unmanaged rules (Mode.gather (contributions.map Contribution.modes)) services := by
  have updated : (Job.run (Sample.reconciler.update [Sample.service [("replicas", .int 3)]]
      (.map [])) Sample.owned).1 = .ok false := by decide +kernel
  exact managed_fields_released (.inr ⟨_, _, rfl⟩) rfl (Job.run_of_outcome updated)

end TenantSizing
