import TenantSizing.Proofs.Extremes
import TenantSizing.Proofs.Requests
import TenantSizing.Proofs.Rework

namespace TenantSizing

namespace Identity

variable {identity : Identity} {fallback : String} {resource : Tree}

theorem not_holds_iff (complete : identity.complete = true) :
    identity.holds fallback resource = false ↔ read resource fallback ≠ .ok identity := by
  rw [← Bool.not_eq_true, holds_iff_read complete]

end Identity

open Identity

/-- The two ways to tell an identity agree: the resource that is found is the first one of which the
identity can be read, and none is found if there is no such one. Two resources of one identity merge
into one that has it still, whichever way each of them states the namespace. -/
theorem identities_agree (items : List Tree) (fallback : String) {identity : Identity}
    (complete : identity.complete = true) :
    (∀ item, identity.find? items fallback = some item ↔
      ∃ before after, items = before ++ item :: after ∧ read item fallback = .ok identity ∧
        ∀ other ∈ before, read other fallback ≠ .ok identity) ∧
    (identity.find? items fallback = none ↔
      ∀ item ∈ items, read item fallback ≠ .ok identity) ∧
    ∀ a b, read a fallback = .ok identity → read b fallback = .ok identity →
      (∀ policy rules, read (a.filteredMerge policy rules true b) fallback = .ok identity) ∧
      ∀ x, read (a.extremeMerge x b) fallback = .ok identity := by
  refine ⟨fun item => ?_, ?_, fun a b first second => ⟨fun policy rules => ?_, fun x => ?_⟩⟩
  · rw [find?, List.find?_eq_some_iff_append]
    constructor
    · rintro ⟨found, before, after, he, others⟩
      refine ⟨before, after, he, (holds_iff_read complete).mp found, fun other ho => ?_⟩
      exact (not_holds_iff complete).mp (by simpa using others other ho)
    · rintro ⟨before, after, he, found, others⟩
      refine ⟨(holds_iff_read complete).mpr found, before, after, he, fun other ho => ?_⟩
      simpa using (not_holds_iff complete).mpr (others other ho)
  · rw [find?, List.find?_eq_none]
    exact forall₂_congr fun item _ => not_congr (holds_iff_read complete)
  · exact read_blend (Tree.blend_merge a b) first ((holds_iff_read complete).mpr second)
  · exact read_blend (Tree.blend_extremeMerge a b) first ((holds_iff_read complete).mpr second)

/-- A config map that states its namespace in some way. -/
def Sample.placed (space : Tree) : Tree :=
  .map [("apiVersion", .text "v1"), ("kind", .text "ConfigMap"), ("name", .text "limits"),
    ("namespace", space)]

/-- A namespace that is a number counts as missing, even where the fallback reads as that number. -/
theorem identities_agree_numbered :
    let identity : Identity := ⟨"1", "v1", "ConfigMap", "limits"⟩
    identity.find? [.int 1, Sample.placed (.text "2"), Sample.placed (.int 2),
        Sample.placed (.text "1")] "1" = some (Sample.placed (.int 2)) ∧
      (∀ policy rules, read ((Sample.placed (.int 2)).filteredMerge policy rules true
        (Sample.placed (.text "1"))) "1" = .ok identity) ∧
      ∀ x, read ((Sample.placed (.int 2)).extremeMerge x (Sample.placed (.text "1"))) "1" =
        .ok identity := by
  intro identity
  obtain ⟨found, -, merges⟩ := identities_agree [.int 1, Sample.placed (.text "2"),
    Sample.placed (.int 2), Sample.placed (.text "1")] "1" (show identity.complete = true by decide)
  refine ⟨(found _).mpr ⟨[.int 1, Sample.placed (.text "2")], [Sample.placed (.text "1")], rfl,
    rfl, ?_⟩, merges _ _ rfl rfl⟩
  intro other ho
  rw [← not_holds_iff (by decide)]
  revert other
  decide

end TenantSizing
