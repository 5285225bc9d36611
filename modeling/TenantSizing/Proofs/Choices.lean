import TenantSizing.Proofs.Outcomes
import TenantSizing.Proofs.Rounds

namespace TenantSizing

open TenantSizing.Tree

variable {scope : Scope} {modes : Tree} {services others configs : List Tree}

/-- The names of services, by which configs find them. -/
def namesOf (services : List Tree) : List Tree :=
  services.map (·.get "name")

namespace Services

theorem position?_eq (items : List Tree) (name : String) :
    position? items (.text name) = (namesOf items).findIdx? fun other => other = .text name := by
  rw [position?, namesOf, List.findIdx?_map]
  congr 1
  funext item
  rw [Bool.eq_iff_iff, isNamed_text]
  simp

theorem find?_isSome {name : String} :
    (find? services (.text name)).isSome = true ↔ .text name ∈ namesOf services := by
  rw [find?, List.find?_isSome, namesOf, List.mem_map]
  exact exists_congr fun service => and_congr_right fun _ => isNamed_text

theorem find?_eq_none {name : String} :
    find? services (.text name) = none ↔ .text name ∉ namesOf services := by
  rw [← find?_isSome, Bool.not_eq_true, Option.isSome_eq_false_iff, Option.isNone_iff_eq_none]

end Services

namespace Request

end Request

/-- A choice that some configs make among services: each request chosen is that of a config, for a
service of its name, with a mode that can be told. -/
def Chosen (modes : Tree) (configs services : List Tree) (choice : Nat → Option Request) : Prop :=
  ∀ i request, choice i = some request → ∃ config ∈ configs, ∃ mode independent,
    config.isMap = true ∧ request = Request.ofConfig config independent ∧
    (namesOf services)[i]? = some (.text (config.get "name").string) ∧
    Mode.resolveTree modes (config.get "name").string = .ok mode ∧
    Mode.treeIsIndependent mode = .ok independent

namespace Chosen

variable {first later choice : Nat → Option Request}

theorem mono (h : Chosen modes configs services choice) {more : List Tree}
    (hc : ∀ config ∈ configs, config ∈ more) : Chosen modes more services choice := by
  intro i request hi
  obtain ⟨config, member, rest⟩ := h i request hi
  exact ⟨config, hc config member, rest⟩

theorem or (h : Chosen modes configs services first) (hl : Chosen modes configs services later) :
    Chosen modes configs services fun i => (first i).or (later i) := by
  intro i request hc
  dsimp only at hc
  cases hf : first i with
  | none =>
    rw [hf, Option.none_or] at hc
    exact hl i request hc
  | some other =>
    rw [hf, Option.some_or] at hc
    exact h i request (hf.trans hc)

end Chosen

/-- What one config changes is no place of configs for other operands. -/
theorem Chosen.apart {config : Tree} {first later : Nat → Option Request}
    (h : Chosen modes [config] services first) (hl : Chosen modes configs services later)
    (differ : ∀ other ∈ configs, config.isMap = true → other.isMap = true →
      (config.get "name").string ≠ (other.get "name").string) (i : Nat) (request : Request)
    (hf : first i = some request) : later i = none := by
  cases hi : later i with
  | none => rfl
  | some other =>
    obtain ⟨_, single, _, _, map, _, named, _⟩ := h i request hf
    obtain ⟨config', member, _, _, map', _, named', _⟩ := hl i other hi
    obtain rfl := List.mem_singleton.mp single
    rw [named] at named'
    have same := Option.some.inj named'
    exact absurd (by simpa using same) (differ config' member map map')

end TenantSizing
