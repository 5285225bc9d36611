import Mathlib.Data.List.Forall2
import Mathlib.Data.List.Nodup
import Mathlib.Data.Prod.Lex
import Mathlib.Data.String.Basic
import TenantSizing.Proofs.Runs

namespace TenantSizing

namespace Tenant

/-- What tenants are ordered by. -/
def seat (tenant : Tree) : String ×ₗ String :=
  toLex (space tenant, name tenant)

theorem inOrder_iff {a b : Tree} : inOrder a b = true ↔ seat a ≤ seat b := by
  rw [seat, seat, Prod.Lex.toLex_le_toLex]
  simp only [inOrder, Bool.or_eq_true, Bool.and_eq_true, Bool.not_eq_true', decide_eq_true_eq,
    decide_eq_false_iff_not, not_lt]

theorem pairwise_insertInOrder {tenants : List Tree} (tenant : Tree)
    (h : tenants.Pairwise fun a b => seat a ≤ seat b) :
    (insertInOrder tenant tenants).Pairwise fun a b => seat a ≤ seat b := by
  induction tenants with
  | nil => exact List.pairwise_singleton _ _
  | cons other rest ih =>
    obtain ⟨first, later⟩ := List.pairwise_cons.mp h
    unfold insertInOrder
    split
    · rename_i ho
      have before := inOrder_iff.mp ho
      refine List.pairwise_cons.mpr ⟨fun next hn => ?_, h⟩
      rcases List.mem_cons.mp hn with rfl | hm
      · exact before
      · exact before.trans (first next hm)
    · rename_i ho
      have behind : seat other ≤ seat tenant :=
        (le_total _ _).resolve_left fun hle => ho (inOrder_iff.mpr hle)
      refine List.pairwise_cons.mpr ⟨fun next hn => ?_, ih later⟩
      rcases List.mem_cons.mp ((insertInOrder_perm tenant rest).mem_iff.mp hn) with rfl | hm
      · exact behind
      · exact first next hm

theorem pairwise_sorted (tenants : List Tree) :
    (sorted tenants).Pairwise fun a b => seat a ≤ seat b := by
  induction tenants with
  | nil => exact .nil
  | cons tenant rest ih => exact pairwise_insertInOrder tenant ih

/-- Tenants that nobody can take for each other are put into one order, however they come. -/
theorem sorted_eq_of_perm {these those : List Tree} (hp : these.Perm those)
    (hd : (these.map seat).Nodup) : sorted these = sorted those := by
  refine List.Perm.eq_of_pairwise (fun a b ha hb hab hba => ?_) (pairwise_sorted these)
    (pairwise_sorted those) (((sorted_perm these).trans hp).trans (sorted_perm those).symm)
  have ha := (sorted_perm these).mem_iff.mp ha
  have hb := hp.mem_iff.mpr ((sorted_perm those).mem_iff.mp hb)
  exact List.inj_on_of_nodup_map hd ha hb (le_antisymm hab hba)

section

variable {R : Tree → Tree → Prop} {these those : List Tree}

theorem forall₂_insertInOrder (seats : ∀ a b, R a b → seat a = seat b) {a b : Tree} (h : R a b)
    (hs : List.Forall₂ R these those) :
    List.Forall₂ R (insertInOrder a these) (insertInOrder b those) := by
  induction hs with
  | nil => exact .cons h .nil
  | cons first rest ih =>
    rename_i c d _ _
    have order : inOrder a c = inOrder b d := by
      rw [Bool.eq_iff_iff, inOrder_iff, inOrder_iff, seats _ _ h, seats _ _ first]
    unfold insertInOrder
    rw [order]
    split
    · exact .cons h (.cons first rest)
    · exact .cons first ih

/-- Tenants that are related one by one are live at the same places and are put into the same order,
if related tenants are live alike and have one seat. -/
theorem forall₂_live (lives : ∀ a b, R a b → isLive a = isLive b)
    (seats : ∀ a b, R a b → seat a = seat b) (hs : List.Forall₂ R these those) :
    List.Forall₂ R (live these) (live those) := by
  unfold live
  induction hs with
  | nil => exact .nil
  | cons first rest ih =>
    rw [List.filter_cons, List.filter_cons, lives _ _ first]
    split
    · exact forall₂_insertInOrder seats first ih
    · exact ih

end

end Tenant

/-- The same progress, with these tenants listed. -/
def Progress.listing (p : Progress) (tenants : List Tree) : Progress :=
  { p with cluster := { p.cluster with tenants := .list tenants } }

namespace Job

variable {α β : Type} {these those : List Tree} {job : Job α} {next : α → Job β}

/-- The job cannot tell the two listings apart: it ends the same way and makes the same progress. -/
def Blind (these those : List Tree) (job : Job α) : Prop :=
  ∀ p : Progress, ∃ outcome, ∃ q : Progress,
    run job (p.listing these) = (outcome, q.listing these) ∧
      run job (p.listing those) = (outcome, q.listing those)

theorem Blind.bind (h : Blind these those job) (hn : ∀ a, Blind these those (next a)) :
    Blind these those (job >>= next) := by
  intro p
  obtain ⟨outcome, q, h₁, h₂⟩ := h p
  rw [run_bind, run_bind, h₁, h₂]
  cases outcome with
  | error failure => exact ⟨.error failure, q, rfl, rfl⟩
  | ok a => exact hn a q

theorem blind_pure (value : α) : Blind these those (pure value : Job α) := fun p =>
  ⟨_, p, rfl, rfl⟩

theorem blind_fail (failure : Failure) : Blind these those (fail failure : Job α) := fun p =>
  ⟨_, p, rfl, rfl⟩

theorem blind_note (notice : Notice) : Blind these those (note notice) := fun p =>
  ⟨_, { p with notices := p.notices ++ [notice] }, rfl, rfl⟩

theorem blind_ofReport (report : Report α) : Blind these those (ofReport report) := fun p =>
  ⟨report.outcome, { p with notices := p.notices ++ report.notices }, run_ofReport _ _,
    run_ofReport _ _⟩

theorem blind_request (call : Call) : Blind these those (request call) := fun p =>
  ⟨_, { p with
    effects := p.effects ++ [.call call]
    cluster := { p.cluster with schedule := p.cluster.schedule.after call.method } }, rfl, rfl⟩

theorem blind_get {next : Progress → Job β}
    (h : ∀ p : Progress, next (p.listing these) = next (p.listing those))
    (hn : ∀ p, Blind these those (next p)) :
    Blind these those ((get : Job Progress) >>= next) := by
  intro p
  rw [run_bind, run_bind, run_get, run_get]
  dsimp only
  rw [← h p]
  exact hn (p.listing these) p

end Job

open Job

section

variable {these those : List Tree}

theorem Access.blind_getConfig (space name : String) :
    Blind these those (Access.getConfig space name) := by
  unfold Access.getConfig
  have refuse : ∀ fault, Blind these those (do
      note (.getFailed (Access.configKey space name) fault)
      fail (.ofApi ("OperandConfig " ++ Access.configKey space name) fault) : Job Tree) :=
    fun fault => (blind_note _).bind fun _ => blind_fail _
  refine (blind_request _).bind fun answer => ?_
  cases answer with
  | some fault => exact refuse fault
  | none =>
    refine blind_get (fun p => rfl) fun p => ?_
    cases p.cluster.config with
    | some config => exact blind_pure config
    | none => exact refuse _

theorem Access.blind_replaceConfig (object : Tree) :
    Blind these those (Access.replaceConfig object) := by
  unfold Access.replaceConfig
  refine (blind_ofReport _).bind fun fields => ?_
  refine (blind_request _).bind fun answer => ?_
  cases answer with
  | some fault => exact (blind_note _).bind fun _ => blind_fail _
  | none =>
    refine Blind.bind (fun p => ?_) fun _ => blind_pure object
    exact ⟨_, { p with cluster := { p.cluster with config := some object } }, rfl, rfl⟩

end

namespace Reconciler

variable {r : Reconciler} {these those : List Tree}

/-- Of a listing, a reconcile sees its live tenants in their order. -/
theorem blind_liveTenants (h : Tenant.live these = Tenant.live those) :
    Blind these those liveTenants := by
  unfold liveTenants Access.listTenants
  rw [bind_assoc]
  refine (blind_request _).bind fun answer => ?_
  cases answer with
  | some fault =>
    exact ((blind_note _).bind fun _ => blind_fail _).bind fun tenants =>
      (blind_ofReport _).bind fun items => blind_pure _
  | none =>
    intro p
    have seen : ∀ tenants : List Tree, run (do
        let listed ← (do
          let p ← get
          pure (if p.cluster.tenants.isNull then .list [] else p.cluster.tenants) : Job Tree)
        let items ← ofReport (.ofExcept listed.elements?)
        pure (Tenant.live items)) (p.listing tenants) =
        (.ok (Tenant.live tenants), { p with notices := p.notices ++ [] }.listing tenants) := by
      intro tenants
      rw [bind_assoc, run_bind, run_get]
      dsimp only
      rw [pure_bind, run_bind, run_ofReport]
      rfl
    exact ⟨_, _, seen these, h ▸ seen those⟩

theorem blind_aggregate (h : Tenant.live these = Tenant.live those) (services : List Tree)
    (rules : RuleSet) (x : Extreme) : Blind these those (r.aggregate services rules x) := by
  unfold aggregate demand
  refine Blind.bind ?_ fun demand => blind_ofReport _
  exact (blind_liveTenants h).bind fun tenants => blind_ofReport _

theorem blind_fetch : Blind these those r.fetch := by
  unfold fetch
  refine (Access.blind_getConfig _ _).bind fun config => ?_
  split
  · exact (blind_ofReport _).bind fun copies => blind_pure _
  · exact blind_fail _

theorem blind_write (config : Tree) (services : List Tree) (unchanged : Bool) :
    Blind these those (r.write config services unchanged) := by
  unfold write
  split
  · exact blind_note _
  · refine (Access.blind_replaceConfig _).bind fun _ => ?_
    split
    · exact blind_note _
    · exact blind_pure _

theorem blind_reconcile (h : Tenant.live these = Tenant.live those) (started : Notice)
    (prepare : Scope → List Tree → Report (List Tree)) (x : Extreme) :
    Blind these those (r.reconcile started prepare x) := by
  unfold reconcile
  refine blind_fetch.bind fun found => ?_
  refine (blind_ofReport _).bind fun rules => ?_
  refine (blind_note _).bind fun _ => ?_
  refine (blind_ofReport _).bind fun prepared => ?_
  refine (blind_aggregate h _ _ _).bind fun services => ?_
  refine (blind_ofReport _).bind fun unchanged => ?_
  exact (blind_write _ _ _).bind fun _ => blind_pure _

end Reconciler

/-- Only the live tenants of a listing count, and only as a set where no two of them share their
namespace and name. Whatever is stored and whichever calls are refused, a reconcile ends the same
way, leaves the same notices, makes the same calls and stores the same object. What the others of a
listing contain does not matter at all. -/
theorem only_live_tenants_count {r : Reconciler} {job : Job Bool}
    (hj : job = r.shrink ∨ ∃ configs modes, job = r.update configs modes) :
    (∀ these those : List Tree, (these.filter Tenant.isLive).Perm (those.filter Tenant.isLive) →
      ((these.filter Tenant.isLive).map Tenant.seat).Nodup → Blind these those job) ∧
    ∀ these : List Tree, Blind these (these.filter Tenant.isLive) job := by
  obtain ⟨started, prepare, x, rfl⟩ := Reconciler.exists_reconcile hj
  refine ⟨fun these those hp hd => ?_, fun these => ?_⟩
  · exact Reconciler.blind_reconcile (Tenant.sorted_eq_of_perm hp hd) started prepare x
  · refine Reconciler.blind_reconcile ?_ started prepare x
    rw [Tenant.live, Tenant.live, List.filter_filter]
    simp only [Bool.and_self]

/-- A copy of a tenant, which asks for more than the tenant itself. -/
def Sample.clone : Tree :=
  .map [("metadata", .map [("name", .text "copy"), ("namespace", .text "ns"),
      ("labels", .map [(Tenant.cloneLabel, .text "ns")])]),
    ("spec", .map [("services", .list [service [("replicas", .int 9)]])])]

theorem only_live_tenants_count_reversed :
    Blind
      [Sample.tenant "a" [("services", .list [Sample.service [("replicas", .int 3)]])],
        Sample.tenant "b" [("profileController", .text "turbo")], Sample.clone]
      [Sample.tenant "b" [("profileController", .text "turbo")],
        Sample.tenant "a" [("services", .list [Sample.service [("replicas", .int 3)]])]]
      Sample.reconciler.shrink :=
  (only_live_tenants_count (.inl rfl)).1 _ _ (by decide +kernel) (by decide +kernel)

end TenantSizing
