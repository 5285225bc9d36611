import Mathlib.Logic.Relator
import TenantSizing.Proofs.Growth
import TenantSizing.Proofs.Interference
import TenantSizing.Proofs.LiveTenants

namespace TenantSizing

open TenantSizing.Tree Job

section Summary

variable {scope : Scope} {operand kind : String} {path : List String} {rules : Entries}
  {a b held wanted : Tree}

/-- What a summary can hold of a kind: nothing or a governed map, with an exact number at the path.
-/
structure Summed (rules : Entries) (path : List String) (held : Tree) : Prop where
  conforms : Conforms governed rules held
  shape : held = .null ∨ held.isMap = true
  exact : (held.follow path).Exact

theorem Summed.entries (h : Summed rules path held) (hp : path ≠ []) :
    Summed rules path (.map held.entries) := by
  refine ⟨?_, .inr rfl, by rw [follow_entries held hp]; exact h.exact⟩
  rcases h.shape with rfl | hm
  · exact conforms_map.mpr fun entry he => by cases he
  · obtain ⟨entries, rfl⟩ := isMap_iff.mp hm
    exact h.conforms

theorem Summed.orElse (h : Summed rules path held) :
    held.orElse (.map []) = .map held.entries := by
  rcases h.shape with rfl | hm
  · rfl
  · obtain ⟨entries, rfl⟩ := isMap_iff.mp hm
    cases entries <;> rfl

namespace Tree.Outgrows

theorem entries (h : Outgrows path a b) (hp : path ≠ []) (shape : a = .null ∨ a.isMap = true) :
    Outgrows path (.map a.entries) (.map b.entries) := by
  cases path with
  | nil => exact absurd rfl hp
  | cons name keys => exact ⟨fun he => (by cases he), fun _ => rfl, fun _ => h.2.2 shape⟩

end Tree.Outgrows

namespace Scope.Sizes

theorem allowed (h : scope.Sizes operand kind path) :
    (path.getLast?.or none).any Wish.policy.comparable.contains = true := by
  obtain ⟨key, hk, hl⟩ := h.comparable
  simpa [hl, Wish.policy] using hk

end Scope.Sizes

end Summary

section Resync

variable {r : Reconciler} {p q : Progress} {rules : RuleSet} {operand kind : String}
  {path : List String} {before after : List Tree} {tenant : Tree} {unchanged : Bool}

end Resync

namespace Sample

/-- A tenant that asks for replicas. -/
def asking (name : String) (replicas : Tree) : Tree :=
  tenant name [("services", .list [service [("replicas", replicas)]])]

/-- A resync of a cluster with 2 replicas and these tenants. -/
def resynced (tenants : List Tree) : Except Failure Bool × Progress :=
  run (reconciler.update [] (.map [])) ((start [("replicas", .int 2)] []).listing tenants)

/-- The number 10 ^ 23 with a fraction point, which is the integer 99999999999999991611392. -/
def rounded : Tree :=
  .scalar (.float (.finite false 2980232238769531 25 (.inl rfl)))

end Sample

end TenantSizing
