import TenantSizing.Proofs.Conformance
import TenantSizing.Proofs.Contributions
import TenantSizing.Proofs.Rework
import TenantSizing.Proofs.Summaries

namespace TenantSizing

variable {scope : Scope} {modes : Tree}

namespace Services

/-- A changed list has the changed service in the place of the first of its name. -/
theorem mem_change {items : List Tree} {name item : Tree} {f : Tree → Tree}
    (h : item ∈ change items name f) :
    item ∈ items ∨ ∃ before ∈ items, isNamed name before = true ∧ item = f before := by
  induction items with
  | nil => cases h
  | cons first rest ih =>
    rw [change] at h
    split at h
    · rename_i hn
      rcases List.mem_cons.mp h with rfl | h
      · exact .inr ⟨first, by simp, hn, rfl⟩
      · exact .inl (by simp [h])
    · rcases List.mem_cons.mp h with rfl | h
      · exact .inl (by simp)
      · rcases ih h with h | ⟨before, hb, hn, he⟩
        · exact .inl (by simp [h])
        · exact .inr ⟨before, by simp [hb], hn, he⟩

variable {f : Tree → Tree}

theorem find?_map (hf : ∀ item, (f item).get "name" = item.get "name") (items : List Tree)
    (name : String) : find? (items.map f) (.text name) = (find? items (.text name)).map f := by
  unfold find?
  rw [List.find?_map]
  have kept : isNamed (.text name) ∘ f = isNamed (.text name) := by
    funext item
    exact isNamed_congr (hf item) name
  rw [kept]

/-- Changing the first service of a name, as a search for some name sees it. -/
theorem find?_change (hf : ∀ item, (f item).get "name" = item.get "name") (items : List Tree)
    (name other : String) :
    find? (change items (.text name) f) (.text other) =
      if name = other then (find? items (.text other)).map f else find? items (.text other) := by
  induction items with
  | nil => simp [change, find?]
  | cons item rest ih =>
    rw [change]
    by_cases hn : isNamed (.text name) item = true
    · have same : isNamed (.text other) item = true ↔ name = other := by
        rw [isNamed_text, isNamed_text.mp hn]
        simp
      rw [if_pos hn, find?_cons, find?_cons, isNamed_congr (hf item)]
      by_cases he : name = other
      · rw [if_pos he, if_pos (same.mpr he), if_pos (same.mpr he)]
        rfl
      · rw [if_neg he, if_neg (mt same.mp he), if_neg (mt same.mp he)]
    · rw [if_neg hn, find?_cons, find?_cons]
      by_cases ho : isNamed (.text other) item = true
      · have he : name ≠ other := fun he => hn (he ▸ ho)
        rw [if_pos ho, if_pos ho, if_neg he]
      · rw [if_neg ho, if_neg ho, ih]

end Services

namespace Request

variable {request : Request}

def applyResources (scope : Scope) (request : Request) (held : List Tree) : List Tree :=
  match request.resources with
  | some wanted => held.map (request.applyResource scope (completeResources wanted))
  | none => held

theorem apply_eq_rework (request : Request) (service : Tree) :
    request.apply scope service =
      Services.rework (request.applyKinds scope) (request.applyResources scope) service := by
  cases hr : request.resources with
  | some wanted =>
    have items : request.applyResources scope =
        List.map (request.applyResource scope (completeResources wanted)) := by
      funext held
      rw [applyResources, hr]
    unfold apply Services.rework Tree.replace
    rw [hr, items]
    cases service.get "spec" with
    | map kinds =>
      simp only [Services.onKinds]
      generalize service.set "spec" (.map (request.applyKinds scope kinds)) = halfway
      cases halfway.get "resources" <;> rfl
    | list items =>
      simp only [Services.onKinds]
      cases service.get "resources" <;> rfl
    | scalar value =>
      simp only [Services.onKinds]
      cases service.get "resources" <;> rfl
  | none =>
    have items : request.applyResources scope = id := by
      funext held
      rw [applyResources, hr, id]
    have stays : ∀ halfway : Tree, halfway.replace "resources" (Services.onItems id) = halfway := by
      intro halfway
      refine Tree.replace_eq_self (fun value hv => ?_) rfl
      cases hg : halfway.get "resources" with
      | list held =>
        rw [hg] at hv
        exact (Option.some.inj hv).symm
      | map entries => simp [hg, Services.onItems] at hv
      | scalar value => simp [hg, Services.onItems] at hv
    rw [Services.rework, items, stays]
    unfold apply Tree.replace
    rw [hr]
    cases service.get "spec" with
    | map kinds =>
      simp only [Services.onKinds]
      generalize service.set "spec" (.map (request.applyKinds scope kinds)) = halfway
      cases halfway.get "resources" <;> rfl
    | list items =>
      simp only [Services.onKinds]
      cases service.get "resources" <;> rfl
    | scalar value =>
      simp only [Services.onKinds]
      cases service.get "resources" <;> rfl

theorem get_name_apply (request : Request) (service : Tree) :
    (request.apply scope service).get "name" = service.get "name" := by
  rw [apply_eq_rework, Services.get_rework, if_neg (by decide), if_neg (by decide)]

/-- A service has the same kinds as before, each behind the request. -/
theorem lookup_apply (request : Request) (service : Tree) (kind : String) :
    ((request.apply scope service).get "spec").entries.lookup kind =
      ((service.get "spec").entries.lookup kind).map (request.applyKind scope kind) := by
  rw [apply_eq_rework, Services.get_rework, if_neg (by decide), if_pos rfl]
  cases service.get "spec" with
  | map kinds => exact Keyed.lookup_map kinds _ kind
  | list items => rfl
  | scalar value => rfl

section Layers

variable {P : Nat → Tree → Prop} {n : Nat} (hP : Tree.Layered P)

include hP

theorem layered_applyKind (hk : P (n + 1) (.map request.spec)) (kind : String) {current : Tree}
    (h : P n current) : P n (request.applyKind scope kind current) := by
  have held : P n (scope.release request.independent (.text request.operand) kind current) :=
    hP.release kind h
  have wanted : P n (request.wanted scope kind) :=
    hP.release kind (hP.lookup (hP.value hk) kind)
  unfold applyKind
  dsimp only
  split
  · exact hP.blend (Tree.blend_merge _ _) held wanted
  · exact held

theorem layered_applyResource {wanted : List Tree} {resource : Tree}
    (hw : ∀ override ∈ wanted, P n override) (h : P n resource) :
    P n (request.applyResource scope (completeResources wanted) resource) := by
  unfold applyResource
  split
  · rename_i override ho
    unfold overrideFor? at ho
    split at ho
    · obtain ⟨found, hf, rfl⟩ := Option.map_eq_some_iff.mp ho
      have hm := (List.mem_filter.mp (List.mem_of_find?_eq_some hf)).1
      exact hP.blend (Tree.blend_merge _ _) h (hP.releasedResource (hw found hm))
    · cases ho
  · exact h

theorem layered_apply {service : Tree} (hk : P (n + 1) (.map request.spec))
    (hr : ∀ wanted, request.resources = some wanted → ∀ resource ∈ wanted, P n resource)
    (h : P (n + 2) service) : P (n + 2) (request.apply scope service) := by
  rw [apply_eq_rework]
  refine hP.rework h (fun kinds hm => ?_) fun items hi => ?_
  · exact hP.values hm fun entry he => layered_applyKind hP hk entry.1 (hP.value hm entry he)
  · unfold applyResources
    split
    · rename_i wanted hw
      exact hP.listMap fun resource hm =>
        layered_applyResource hP (hr wanted hw) (hP.list.mp hi resource hm)
    · exact hi

theorem layered_resources_ofConfig {config : Tree} (hc : P (n + 2) config) (independent : Bool) :
    ∀ wanted, (ofConfig config independent).resources = some wanted →
      ∀ resource ∈ wanted, P n resource := by
  intro wanted hw resource hq
  have hi := hP.items (hP.get hc "resources")
  cases hl : config.get "resources" with
  | list items =>
    simp only [ofConfig, hl, Tree.items?, Option.some.injEq] at hw
    rw [hl] at hi
    exact hi resource (hw ▸ hq)
  | map entries => simp [ofConfig, hl, Tree.items?] at hw
  | scalar value => simp [ofConfig, hl, Tree.items?] at hw

end Layers

/-- What a config asks for can be copied. -/
structure Copied (config : Tree) : Prop where
  spec : ∀ entry ∈ (config.get "spec").entries, entry.2.depth ≤ Tree.maxCopied
  resources : ∀ item ∈ (config.get "resources").items, item.depth ≤ Tree.maxCopied

theorem read_of_copied {config : Tree} (h : Copied config) (independent : Bool) :
    read config independent = .ok (ofConfig config independent) := by
  have spec : ∀ tree ∈ (config.get "spec").entries.map Prod.snd, tree.depth ≤ Tree.maxCopied := by
    simpa using fun tree key he => h.spec (key, tree) he
  rw [read, Tree.mapM_copy_of_le spec, Tree.mapM_copy_of_le h.resources]
  rfl

theorem read_of_deep {config : Tree} (h : ¬Copied config) (independent : Bool) :
    read config independent = .error .tooDeep := by
  unfold read
  by_cases spec : ∀ tree ∈ (config.get "spec").entries.map Prod.snd, tree.depth ≤ Tree.maxCopied
  · have resources : ¬∀ item ∈ (config.get "resources").items, item.depth ≤ Tree.maxCopied :=
      fun all => h ⟨fun entry he => spec _ (List.mem_map_of_mem he), all⟩
    rw [Tree.mapM_copy_of_le spec, Tree.mapM_copy_of_lt resources]
    rfl
  · rw [Tree.mapM_copy_of_lt spec]
    rfl

theorem read_eq_ok {config : Tree} {independent : Bool} {request : Request}
    (h : read config independent = .ok request) : request = ofConfig config independent := by
  by_cases copied : Copied config
  · rw [read_of_copied copied] at h
    exact (Except.ok.inj h).symm
  · rw [read_of_deep copied] at h
    cases h

end Request

/-- One config that is applied changes the service that it names by its request. If it names none,
the services stay as they are. -/
theorem applyConfig_ok {services after : List Tree} {config : Tree}
    (h : (applyConfig scope modes services config).outcome = .ok after) :
    after = services ∧ (config.isMap = false ∨
        Services.find? services (.text (config.get "name").string) = none) ∨
      ∃ service mode independent, config.isMap = true ∧
      Services.find? services (.text (config.get "name").string) = some service ∧
      Mode.resolveTree modes (config.get "name").string = .ok mode ∧
      Mode.treeIsIndependent mode = .ok independent ∧
      after = Services.change services (.text (config.get "name").string)
        ((Request.ofConfig config independent).apply scope) := by
  unfold applyConfig at h
  split at h
  · dsimp only at h
    split at h
    · rename_i hf
      cases h
      exact .inl ⟨rfl, .inr hf⟩
    · rename_i service hf
      rw [Report.outcome_bind, Report.outcome_ofExcept] at h
      cases hm : Mode.resolveTree modes ((Tree.map _).get "name").string with
      | error failure =>
        rw [hm] at h
        cases h
      | ok mode =>
        rw [hm] at h
        simp only [Except.bind, Report.outcome_bind, Report.outcome_ofExcept,
          Report.outcome_note, Report.outcome_pure] at h
        cases hi : Mode.treeIsIndependent mode with
        | error failure =>
          rw [hi] at h
          cases h
        | ok independent =>
          rw [hi] at h
          dsimp only at h
          split at h
          · cases h
          · rename_i request hr
            cases h
            rw [Request.read_eq_ok hr]
            exact .inr ⟨service, mode, independent, rfl, hf, rfl, hi, rfl⟩
  · cases h
    exact .inl ⟨rfl, .inl rfl⟩
  · rename_i hm hn
    cases h
    refine .inl ⟨rfl, .inl ?_⟩
    cases config with
    | map entries => exact absurd rfl (hm entries)
    | list items => rfl
    | scalar value => rfl

theorem layered_applyConfigs {P : Nat → Tree → Prop} {n : Nat} (hP : Tree.Layered P)
    {services after configs : List Tree} (hc : ∀ config ∈ configs, P (n + 2) config)
    (hs : ∀ service ∈ services, P (n + 2) service)
    (h : (applyConfigs scope modes services configs).outcome = .ok after) :
    ∀ service ∈ after, P (n + 2) service := by
  refine Report.foldlM_invariant
    (P := fun items : List Tree => ∀ service ∈ items, P (n + 2) service) ?_ hs h
  intro config hd before next hb ho
  have hr := hc config hd
  rcases applyConfig_ok ho with ⟨rfl, _⟩ | ⟨_, _, independent, _, _, _, _, rfl⟩
  · exact hb
  · intro service hm
    rcases Services.mem_change hm with hm | ⟨first, hf, _, rfl⟩
    · exact hb service hm
    · exact Request.layered_apply hP (hP.map_entries (hP.get hr "spec"))
        (Request.layered_resources_ofConfig hP hr independent) (hb first hf)

end TenantSizing
