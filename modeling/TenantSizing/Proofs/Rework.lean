import TenantSizing.Proofs.Blend
import TenantSizing.Resource

namespace TenantSizing

namespace Tree

variable {tree value : Tree} {key : String}

theorem get_set (h : tree.isMap = true) (other : String) :
    (tree.set key value).get other = if other = key then value else tree.get other := by
  obtain ⟨entries, rfl⟩ := isMap_iff.mp h
  exact get_insert entries key other value

theorem set_self (h : tree.get key = value) (hn : value ≠ .null) : tree.set key value = tree := by
  cases tree with
  | scalar value => rfl
  | list items => rfl
  | map entries =>
    rw [get_map] at h
    have hl : entries.lookup key = some value := by
      cases hl : entries.lookup key with
      | none => exact absurd (by rw [← h, hl]; rfl) hn
      | some held => rw [← h, hl]; rfl
    rw [set, Keyed.insert_self hl]

theorem isMap_of_get (key : String) (h : tree.get key ≠ .null) : tree.isMap = true := by
  cases hm : tree.isMap with
  | true => rfl
  | false => exact absurd (get_of_not_map hm key) h

end Tree

namespace Tree

/-- Replaces what a tree holds under a field, unless the change does not apply to it. -/
def replace (field : String) (change : Tree → Option Tree) (tree : Tree) : Tree :=
  match change (tree.get field) with
  | some value => tree.set field value
  | none => tree

variable {field : String} {change : Tree → Option Tree} {service : Tree}

theorem get_replace (hn : change .null = none) (service : Tree) (key : String) :
    (service.replace field change).get key =
      if key = field then (change (service.get field)).getD (service.get field)
      else service.get key := by
  unfold replace
  cases hc : change (service.get field) with
  | none =>
    by_cases hk : key = field
    · rw [if_pos hk, hk]
      rfl
    · rw [if_neg hk]
  | some value =>
    have hm : service.isMap = true := isMap_of_get field fun he => by
      rw [he, hn] at hc
      cases hc
    exact get_set hm key

theorem replace_eq_self
    (h : ∀ value, change (service.get field) = some value → value = service.get field)
    (hn : change .null = none) : service.replace field change = service := by
  unfold replace
  cases hc : change (service.get field) with
  | none => rfl
  | some value =>
    have he := h value hc
    refine set_self he.symm fun hv => ?_
    rw [← he, hv, hn] at hc
    cases hc

end Tree

namespace Services

variable {f : Entries → Entries} {g : List Tree → List Tree}

def onKinds (f : Entries → Entries) : Tree → Option Tree
  | .map kinds => some (.map (f kinds))
  | _ => none

def onItems (g : List Tree → List Tree) : Tree → Option Tree
  | .list items => some (.list (g items))
  | _ => none

/-- A service with its kinds and its resources reworked, as far as it has any. -/
def rework (f : Entries → Entries) (g : List Tree → List Tree) (service : Tree) : Tree :=
  (service.replace "spec" (onKinds f)).replace "resources" (onItems g)

/-- What a reworked service holds under each key. -/
theorem get_rework (service : Tree) (key : String) :
    (rework f g service).get key =
      if key = "resources" then
        (onItems g (service.get "resources")).getD (service.get "resources")
      else if key = "spec" then (onKinds f (service.get "spec")).getD (service.get "spec")
      else service.get key := by
  rw [rework, Tree.get_replace rfl, Tree.get_replace rfl, Tree.get_replace rfl,
    if_neg (show "resources" ≠ "spec" by decide)]

end Services

namespace Tree

variable {takes : Tree → Tree → Prop} {a b r : Tree}

/-- A blend of two maps holds under each key some blend of what they hold. -/
theorem Blend.get (h : Blend takes a b r) (ha : a.isMap = true) (key : String) :
    Blend (fun _ _ => True) (a.get key) (b.get key) (r.get key) := by
  cases h with
  | first => exact .first _ _
  | second => exact .second trivial
  | lists f items => cases ha
  | maps f values =>
    rename_i cs ss
    rw [get_map, get_map, get_map, Keyed.lookup_append, Keyed.lookup_map, Keyed.lookup_without]
    cases hl : cs.lookup key with
    | some c =>
      exact (values (key, c) (Keyed.mem_of_lookup hl)).mono fun _ _ _ => trivial
    | none =>
      simp only [Option.map_none, Option.none_or, Keyed.has, hl, Option.isSome_none]
      exact .second trivial

theorem Blend.text {s : String} (h : Blend takes (.text s) (.text s) r) : r = .text s := by
  cases h with
  | first => rfl
  | second => rfl

theorem Blend.string (h : Blend takes a b r) : r.string = a.string ∨ r.string = b.string := by
  cases h with
  | first => exact .inl rfl
  | second => exact .inr rfl
  | lists f items => exact .inl rfl
  | maps f values => exact .inl rfl

end Tree

namespace Identity

variable {identity : Identity} {fallback : String} {resource : Tree}

theorem holds_iff : identity.holds fallback resource = true ↔
    resource.get "apiVersion" = .text identity.apiVersion ∧
      resource.get "kind" = .text identity.kind ∧ resource.get "name" = .text identity.name ∧
      ((raw resource).placedIn fallback).space = identity.space := by
  simp [holds, and_assoc]

theorem isMap_of_holds (h : identity.holds fallback resource = true) : resource.isMap = true := by
  have ha := (holds_iff.mp h).1
  exact Tree.isMap_of_get "apiVersion" (by rw [ha]; simp)

theorem text_of_string {tree : Tree} (h : tree.string ≠ "") : tree = .text tree.string := by
  cases tree with
  | scalar value => cases value <;> simp_all [Tree.string]
  | list items => simp [Tree.string] at h
  | map entries => simp [Tree.string] at h

/-- The identity that is read from a resource is the complete one that it holds. -/
theorem read_eq_ok_iff :
    read resource fallback = .ok identity ↔
      identity.complete = true ∧ identity.holds fallback resource = true := by
  rw [read, holds_iff]
  constructor
  · intro h
    split at h
    · rename_i hc
      cases h
      refine ⟨hc, ?_⟩
      obtain ⟨⟨ha, hk⟩, hn⟩ : ((raw resource).apiVersion ≠ "" ∧ (raw resource).kind ≠ "") ∧
          (raw resource).name ≠ "" := by simpa [complete] using hc
      exact ⟨text_of_string ha, text_of_string hk, text_of_string hn, rfl⟩
    · cases h
  · intro ⟨hc, ha, hk, hn, hs⟩
    have he : (raw resource).placedIn fallback = identity := by
      obtain ⟨space, apiVersion, kind, name⟩ := identity
      simp only [placedIn, raw, mk.injEq] at ha hk hn hs ⊢
      rw [ha, hk, hn]
      exact ⟨hs, rfl, rfl, rfl⟩
    have hr : (raw resource).complete = identity.complete := by
      rw [← he]
      rfl
    rw [hr, if_pos hc, he]

/-- What is looked for is what is read. -/
theorem holds_iff_read (complete : identity.complete = true) :
    identity.holds fallback resource = true ↔ read resource fallback = .ok identity := by
  rw [read_eq_ok_iff, and_iff_right complete]

theorem holds_blend {takes : Tree → Tree → Prop} {a b r : Tree} (h : Tree.Blend takes a b r)
    (ha : identity.holds fallback a = true) (hb : identity.holds fallback b = true) :
    identity.holds fallback r = true := by
  have hm := isMap_of_holds ha
  obtain ⟨av, ak, an, as⟩ := holds_iff.mp ha
  obtain ⟨bv, bk, bn, bs⟩ := holds_iff.mp hb
  have fields := fun key => h.get hm key
  have hv := fields "apiVersion"
  have hk := fields "kind"
  have hn := fields "name"
  rw [av, bv] at hv
  rw [ak, bk] at hk
  rw [an, bn] at hn
  refine holds_iff.mpr ⟨hv.text, hk.text, hn.text, ?_⟩
  have space : (raw r).space = (raw a).space ∨ (raw r).space = (raw b).space :=
    (fields "namespace").string
  simp only [placedIn] at as bs ⊢
  rcases space with hs | hs
  · simp only [hs, as]
  · simp only [hs, bs]

theorem read_blend {takes : Tree → Tree → Prop} {a b r : Tree} (h : Tree.Blend takes a b r)
    (ha : read a fallback = .ok identity) (hb : identity.holds fallback b = true) :
    read r fallback = .ok identity := by
  obtain ⟨complete, here⟩ := read_eq_ok_iff.mp ha
  exact read_eq_ok_iff.mpr ⟨complete, holds_blend h here hb⟩

end Identity

end TenantSizing
