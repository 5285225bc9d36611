import TenantSizing.Proofs.Demands

namespace TenantSizing

open TenantSizing.Tree

namespace Tree

variable {rules : Entries} {path : List String}

/-- Releasing a tree leaves what is not governed. -/
theorem follow_dropManaged {reset : List String} {tree : Tree}
    (ht : tree.regular (fun _ => true) = true) (hp : path ≠ [])
    (hg : (Tree.map rules).follow path = .null) :
    (tree.dropManaged reset rules).follow path = tree.follow path := by
  induction path generalizing tree rules with
  | nil => exact absurd rfl hp
  | cons key rest ih =>
    cases tree with
    | scalar value => rfl
    | list items => rfl
    | map entries =>
      obtain ⟨hn, hv⟩ := regular_map.mp ht
      rw [follow_cons, get_map] at hg
      rw [dropManaged_map, follow_cons, follow_cons, get_map, get_map, lookup_select hn]
      cases hl : entries.lookup key with
      | none => rfl
      | some value =>
        have hr := hv _ (Keyed.mem_of_lookup hl)
        rw [Option.bind_some, Option.getD_some]
        by_cases hk : rest = []
        · subst hk
          have hnull : ruleAt rules key = .null := hg
          have keep : released reset key (ruleAt rules key) value.isMap = true := by
            rw [hnull]
            rfl
          rw [if_pos keep, hnull, Option.getD_some]
          exact congrArg (follow · []) (dropManaged_of_conforms (released_of_no_rules value))
        · by_cases keep : released reset key (ruleAt rules key) value.isMap = true
          · rw [if_pos keep, Option.getD_some]
            exact ih hr hk ((follow_entries _ hk).trans hg)
          · rw [if_neg keep, Option.getD_none, follow_null]
            have hm : value.isMap = false := by
              cases hm : value.isMap with
              | false => rfl
              | true => simp [released, hm] at keep
            exact (follow_of_not_map hm hk).symm

/-- What is not governed is not there in a governed tree. -/
theorem Conforms.follow_eq_null {tree : Tree} (h : Conforms governed rules tree) (hp : path ≠ [])
    (hg : (Tree.map rules).follow path = .null) : tree.follow path = .null := by
  induction path generalizing tree rules with
  | nil => exact absurd rfl hp
  | cons key rest ih =>
    cases tree with
    | scalar value => exact follow_of_not_map rfl hp
    | list items => exact follow_of_not_map rfl hp
    | map entries =>
      rw [follow_cons, get_map] at hg ⊢
      by_cases hk : rest = []
      · subst hk
        cases hl : entries.lookup key with
        | none => rfl
        | some value =>
          have hallow := (conforms_map.mp h _ (Keyed.mem_of_lookup hl)).1
          have hnull : ruleAt rules key = .null := hg
          simp [governed, hnull, isNull] at hallow
      · exact ih (h.lookup key) hk ((follow_entries _ hk).trans hg)

/-- Merging with a governed summary leaves what is not governed. -/
theorem follow_extremeMerge {x : Extreme} {current summary : Tree}
    (h : Conforms governed rules summary) (hp : path ≠ [])
    (hg : (Tree.map rules).follow path = .null) :
    (current.extremeMerge x summary).follow path = current.follow path := by
  induction path generalizing current summary rules with
  | nil => exact absurd rfl hp
  | cons key rest ih =>
    by_cases hc : current = .null
    · rw [hc, null_extremeMerge, follow_null]
      exact h.follow_eq_null hp hg
    · by_cases hm : current.isMap = true ∧ summary.isMap = true
      · rw [follow_cons, follow_cons, get_extremeMerge hm.1 hm.2]
        obtain ⟨entries, rfl⟩ := isMap_iff.mp hm.2
        rw [follow_cons, get_map] at hg
        by_cases hk : rest = []
        · subst hk
          have gone := h.follow_eq_null (show [key] ≠ [] by simp) hg
          rw [follow_cons, follow_nil] at gone
          rw [gone, extremeMerge_null]
        · exact ih (h.lookup key) hk ((follow_entries _ hk).trans hg)
      · rcases (blend_extremeMerge (x := x) current summary).isMap with hk | ⟨hn, _⟩
        · by_cases hcm : current.isMap = true
          · have hk : current.kind ≠ summary.kind := by
              cases current <;> cases summary <;> simp_all [isMap, kind]
            rw [extremeMerge_clash hk hc]
          · have hcm : current.isMap = false := by simpa using hcm
            rw [follow_of_not_map (hk.trans hcm) hp, follow_of_not_map hcm hp]
        · exact absurd hn hc

end Tree

/-- A kind at its level holds what it held wherever it is not governed. -/
theorem Target.follow_applyKind {scope : Scope} {target : Target} (hs : target.Sound scope)
    {kind : String} {current : Tree} {path : List String}
    (hr : current.regular (fun _ => true) = true) (hp : path ≠ [])
    (hg : (Tree.map (scope.rulesOf target.operand kind)).follow path = .null) :
    (target.applyKind scope kind current).follow path = current.follow path := by
  have held : (scope.release target.independent (.text target.operand) kind current).follow path =
      current.follow path := by
    unfold Scope.release
    split
    · exact follow_dropManaged hr hp hg
    · rfl
  unfold applyKind
  dsimp only
  split
  · exact held
  · rw [follow_extremeMerge (hs.governed kind) hp hg, held]

/-- Of each service that follows another, a kind without rules is the same, and so is all of the
other kinds that lies at a path where some rule is missing, null, or no map although the path goes
on. -/
def KeepsUngoverned (rules : RuleSet) (services after : List Tree) : Prop :=
  after.length = services.length ∧
  ∀ (i : Nat) (service next : Tree), services[i]? = some service → after[i]? = some next →
    ∀ kind,
      (rules.forKind? (.text (service.get "name").string) kind = none →
        next.at? [.key "spec", .key kind] = service.at? [.key "spec", .key kind]) ∧
      ∀ governing path, rules.forKind? (.text (service.get "name").string) kind = some governing →
        path ≠ [] → (Tree.map governing).follow path = .null →
        (next.follow ["spec", kind]).follow path = (service.follow ["spec", kind]).follow path

/-- Aggregation touches governed fields only, whatever the tenants ask for and under whatever
modes. -/
theorem aggregation_keeps_ungoverned {r : Reconciler} {rules : RuleSet} {x : Extreme} {p : Progress}
    {services level : List Tree}
    (hs : ∀ service ∈ services, service.regular (fun _ => true) = true)
    (h : (Job.run (r.aggregate services rules x) p).1 = .ok level) :
    KeepsUngoverned rules services level := by
  obtain ⟨demand, hd, rfl, _⟩ := Reconciler.run_aggregate_ok h
  obtain ⟨contributions, hf⟩ := Reconciler.demanded_from hd
  refine ⟨by simp [applySummary], ?_⟩
  intro i before after hb ha kind
  rw [applySummary, List.getElem?_map, hb, Option.map_some, Option.some.injEq] at ha
  subst ha
  have sound := targetOf_sound hf.summary x before
  have level := lookup_applySummaryTo (r.scope rules) demand.modes x demand.summary before kind
  refine ⟨fun hr => ?_, fun governing path hr hp hg => ?_⟩
  · rw [at?_spec, at?_spec, level]
    cases (before.get "spec").entries.lookup kind with
    | none => rfl
    | some current => exact congrArg some (Target.applyKind_of_unruled sound hr current)
  · rw [follow_spec, follow_spec, level]
    have spec := regular_get (hs before (List.mem_of_getElem? hb)) rfl "spec"
    cases hl : (before.get "spec").entries.lookup kind with
    | none => rfl
    | some current =>
      have hc := regular_entries spec _ (Keyed.mem_of_lookup hl)
      have rules : (r.scope rules).rulesOf (before.get "name").string kind = governing :=
        congrArg (Option.getD · []) hr
      refine Target.follow_applyKind sound hc hp ?_
      show (Tree.map ((r.scope _).rulesOf (before.get "name").string kind)).follow path = .null
      rw [rules]
      exact hg

/-- A tenant that asks for more replicas, and for another image, which no rule governs. -/
def Sample.overreaching : Progress :=
  start [("replicas", .int 2), ("image", .text "postgres")]
    [tenant "a" [("services", .list [service [("replicas", .int 3), ("image", .text "mysql")]])]]

theorem aggregation_keeps_ungoverned_overreaching :
    KeepsUngoverned Sample.ruleSet
      [Sample.service [("replicas", .int 2), ("image", .text "postgres")]]
      [Sample.service [("replicas", .int 3), ("image", .text "postgres")]] :=
  aggregation_keeps_ungoverned (r := Sample.reconciler) (x := .max) (p := Sample.overreaching)
    (by decide +kernel) (by decide +kernel)

end TenantSizing
