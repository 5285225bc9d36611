import TenantSizing.Proofs.Clashes
import TenantSizing.Proofs.Growth

namespace TenantSizing

namespace Extreme

variable {x : Extreme} {s t : Scalar} {q : Quantity}

/-- Going from one number to the other does not lead away from the extreme. -/
def Toward : Extreme → ℚ → ℚ → Prop
  | .max, before, after => before ≤ after
  | .min, before, after => after ≤ before

theorem toward_refl (x : Extreme) (number : ℚ) : x.Toward number number := by
  cases x with
  | max => exact le_rfl
  | min => exact le_rfl

/-- What is picked of a quantity and anything else is a quantity. -/
theorem toward_pick (hq : s.quantity? = some q) (t : Scalar) :
    ∃ p, (x.pick s t).quantity? = some p ∧ x.Toward q.value p.value := by
  cases x with
  | max =>
    show ∃ p, (s.larger t).quantity? = some p ∧ q.value ≤ p.value
    unfold Scalar.larger
    split
    · rename_i above
      have both := Scalar.isSome_quantity?_of_above above
      rw [hq] at both
      obtain ⟨p, hp⟩ := Option.isSome_iff_exists.mp both
      exact ⟨p, hp, ((Scalar.above_iff hp hq).mp above).le⟩
    · exact ⟨q, hq, le_rfl⟩
  | min =>
    show ∃ p, (s.smaller t).quantity? = some p ∧ p.value ≤ q.value
    unfold Scalar.smaller
    split
    · rename_i above
      have both := Scalar.isSome_quantity?_of_above above
      rw [hq] at both
      obtain ⟨p, hp⟩ := Option.isSome_iff_exists.mp both.symm
      exact ⟨p, hp, ((Scalar.above_iff hq hp).mp above).le⟩
    · exact ⟨q, hq, le_rfl⟩

end Extreme

namespace Tree

variable {x : Extreme} {a : Tree} {q : Quantity}

/-- What an extreme merge makes of two scalars is the same as the pick of both. -/
theorem picks_extremeMerge (x : Extreme) : Picks (fun _ => extremeMerge x) fun _ => x.pick :=
  (pointwise_extremeMerge x).picks (fun _ => x.pick_eq) fun _ _ _ => extremeMerge_scalars

/-- A quantity stays one, whatever is merged into it. -/
theorem quantity?_extremeMerge (h : a.quantity? = some q) (b : Tree) :
    ∃ p, (a.extremeMerge x b).quantity? = some p ∧ x.Toward q.value p.value := by
  have stays : ∃ p, a.quantity? = some p ∧ x.Toward q.value p.value := ⟨q, h, x.toward_refl _⟩
  cases meeting a b with
  | null_left => cases h
  | null_right => rwa [extremeMerge_null]
  | clash hn _ hk => rwa [extremeMerge_clash hk hn]
  | containers _ hc =>
    cases a with
    | scalar s => exact absurd rfl hc
    | list items => cases h
    | map entries => cases h
  | scalars s t hs ht =>
    by_cases same : (Tree.scalar s).same (.scalar t) = true
    · rwa [extremeMerge_of_same same]
    · rw [extremeMerge_scalars (by simpa using same) hs ht]
      exact Extreme.toward_pick h t

end Tree

open TenantSizing.Tree

/-- What a merge of a summary holds and reports, place by place. -/
theorem summaries_merge_place_by_place (x : Extreme) {current summary : Tree}
    (hc : current.regular Scalar.isComparable = true)
    (hs : summary.regular Scalar.isComparable = true) :
    let merged := current.extremeMerge x summary
    (∀ path, Abreast path current summary →
      MergedAt x.pick (current.at? path) (summary.at? path) (merged.at? path)) ∧
      merged.regular Scalar.isComparable = true ∧
      (∀ path, (current.at? path).isSome = true → (merged.at? path).isSome = true) ∧
      (∀ path q, (current.at? path).bind quantity? = some q →
        ∃ p, (merged.at? path).bind quantity? = some p ∧ x.Toward q.value p.value) ∧
      WarnsOfClashes ((current.extremeClashes [] summary).map .clash) current summary := by
  intro merged
  have stepwise := (pointwise_extremeMerge x).stepwise
  refine ⟨fun path abreast => ?_, (blend_extremeMerge current summary).regular hc hs rfl,
    fun path there => stepwise.isSome_at? none there summary, fun path q hq => ?_,
    reporting_extremeClashes.warns rfl hc hs⟩
  · exact stepwise.mergedAt (picks_extremeMerge x) none hc hs abreast
  · obtain ⟨held, hh, hq⟩ := Option.bind_eq_some_iff.mp hq
    obtain ⟨other, he⟩ := stepwise.at?_of_first none hh summary
    obtain ⟨p, hp, toward⟩ := quantity?_extremeMerge hq other
    exact ⟨p, by rw [he]; exact hp, toward⟩

theorem summaries_merge_place_by_place_mixed :
    MergedAt Scalar.smaller (some (.text "500m")) (some (.text "2"))
        ((Sample.present.extremeMerge .min Sample.requested).at? [.key "cpu", .index 0]) ∧
      (∃ p, ((Sample.present.extremeMerge .min Sample.requested).at?
        [.key "cpu", .index 0]).bind quantity? = some p ∧
          p.value ≤ (⟨5, -1, by decide⟩ : Quantity).value) ∧
      WarnsOfClashes [.clash ⟨[.key "limits", .key "ports"], .list, .scalar⟩] Sample.present
        Sample.requested := by
  obtain ⟨places, -, -, quantities, warns⟩ := summaries_merge_place_by_place .min
    (show Sample.present.regular Scalar.isComparable = true by decide)
    (show Sample.requested.regular Scalar.isComparable = true by decide)
  have clashes : Sample.present.extremeClashes [] Sample.requested =
      [⟨[.key "limits", .key "ports"], .list, .scalar⟩] := by decide +kernel
  rw [clashes] at warns
  exact ⟨places _ Sample.abreast_items, quantities _ _ (by decide +kernel), warns⟩

end TenantSizing
