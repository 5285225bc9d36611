import Mathlib.Data.List.Forall2
import TenantSizing.Proofs.Runs
import TenantSizing.Proofs.Targets

namespace TenantSizing

namespace Report

instance : LawfulMonad Report :=
  LawfulMonad.mk' Report
    (by
      intro α report
      apply Report.ext
      · show (andThen report _).outcome = _
        cases h : report.outcome <;> simp [andThen, h]
      · show (andThen report _).notices = _
        cases h : report.outcome <;> simp [andThen, h])
    (by
      intro α β value next
      apply Report.ext
      · rfl
      · show [] ++ (next value).notices = _
        simp)
    (by
      intro α β γ report next last
      apply Report.ext
      · simp only [outcome_bind]
        cases report.outcome <;> rfl
      · simp only [notices_bind, outcome_bind]
        cases report.outcome with
        | error failure => rfl
        | ok value => cases h : (next value).outcome <;> simp [Except.bind, h])

theorem forall₂_of_mapM {α β : Type} {work : α → Report β} {items : List α} {results : List β}
    (h : (items.mapM work).outcome = .ok results) :
    List.Forall₂ (fun item result => (work item).outcome = .ok result) items results := by
  induction items generalizing results with
  | nil =>
    cases h
    exact .nil
  | cons item rest ih =>
    rw [List.mapM_cons, outcome_bind] at h
    cases hw : (work item).outcome with
    | error failure =>
      rw [hw] at h
      cases h
    | ok result =>
      simp only [hw, Except.bind, outcome_bind] at h
      cases hr : (rest.mapM work).outcome with
      | error failure =>
        rw [hr] at h
        cases h
      | ok others =>
        rw [hr] at h
        cases h
        exact .cons hw (ih hr)

end Report

theorem exists_of_forall₂ {α β : Type} {R : α → β → Prop} {xs : List α} {ys : List β}
    (h : List.Forall₂ R xs ys) {y : β} (hy : y ∈ ys) : ∃ x ∈ xs, R x y := by
  induction h with
  | nil => cases hy
  | cons first rest ih =>
    rcases List.mem_cons.mp hy with rfl | hy
    · exact ⟨_, by simp, first⟩
    · obtain ⟨x, hx, hr⟩ := ih hy
      exact ⟨x, by simp [hx], hr⟩

/-- Where a demand comes from: the contributions of the live tenants, in turn. -/
structure Demand.From (r : Reconciler) (rules : RuleSet) (tenants : Tree)
    (contributions : List Contribution) (demand : Demand) : Prop where
  read : ∃ items, listedTenants tenants = .ok items ∧
    List.Forall₂ (fun tenant contribution =>
      (Contribution.read r.templates tenant).outcome = .ok contribution)
      (Tenant.live items) contributions
  modes : demand.modes = Mode.gather (contributions.map Contribution.modes)
  summary : (summarize (r.scope rules) demand.modes contributions).outcome = .ok demand.summary

theorem Reconciler.demanded_from {r : Reconciler} {rules : RuleSet} {tenants : Tree}
    {demand : Demand} (h : r.demanded rules tenants = .ok demand) :
    ∃ contributions, Demand.From r rules tenants contributions demand := by
  unfold demanded at h
  cases hl : listedTenants tenants with
  | error failure =>
    rw [hl] at h
    cases h
  | ok items =>
    rw [hl] at h
    simp only [Except.bind, readDemand, Report.outcome_bind] at h
    cases hc : ((Tenant.live items).mapM (Contribution.read r.templates)).outcome with
    | error failure =>
      rw [hc] at h
      cases h
    | ok contributions =>
      simp only [hc] at h
      cases hs : (summarize (r.scope rules)
          (Mode.gather (contributions.map Contribution.modes)) contributions).outcome with
      | error failure =>
        rw [hs] at h
        cases h
      | ok summary =>
        rw [hs] at h
        cases h
        exact ⟨contributions, ⟨items, hl, Report.forall₂_of_mapM hc⟩, rfl, hs⟩

variable {pass : Scalar → Bool}

theorem regular_listedTenants {tenants : Tree} {items : List Tree}
    (h : tenants.regular pass = true)
    (hp : ∀ value, value.isComparable = true → pass value = true)
    (hl : listedTenants tenants = .ok items) : ∀ item ∈ items, item.regular pass = true := by
  unfold listedTenants at hl
  split at hl
  · cases hl
    simp
  · exact Tree.regular_elements h hp hl

namespace Demand.From

variable {r : Reconciler} {rules : RuleSet} {tenants : Tree} {contributions : List Contribution}
  {demand : Demand}

theorem layered {P : Nat → Tree → Prop} {n : Nat} (hP : Tree.Layered P)
    (h : From r rules tenants contributions demand)
    (ht : ∀ items, listedTenants tenants = .ok items →
      ∀ tenant ∈ Tenant.live items, P (n + 6) tenant)
    (hb : P (n + 5) (.map SizeTemplate.builtin))
    (hr : ∀ tree, r.templates = some tree → P (n + 5) tree) :
    ∀ contribution ∈ contributions, ∀ service ∈ contribution.services, P (n + 3) service := by
  intro contribution hc
  obtain ⟨items, hl, hf⟩ := h.read
  obtain ⟨tenant, hm, ho⟩ := exists_of_forall₂ hf hc
  exact Contribution.layered_read hP (ht items hl tenant hm) hb hr ho

theorem regular (h : From r rules tenants contributions demand)
    (hp : ∀ value, value.isComparable = true → pass value = true)
    (ht : tenants.regular pass = true)
    (hr : ∀ tree, r.templates = some tree → tree.regular pass = true) :
    ∀ contribution ∈ contributions, ∀ service ∈ contribution.services,
      service.regular pass = true :=
  h.layered (n := 0) (Tree.layered_regular (hp _ rfl))
    (fun _ hl tenant hm => regular_listedTenants ht hp hl tenant (Tenant.mem_live.mp hm).1)
    (Tree.regular_mono hp SizeTemplate.regular_builtin) hr

end Demand.From

end TenantSizing
