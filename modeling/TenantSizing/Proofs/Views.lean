import TenantSizing.Proofs.Totality

namespace TenantSizing

open TenantSizing.Tree

namespace Services

variable {items : List Tree} {name : Tree} {f : Tree → Tree} {keep : Tree → Bool}

/-- A service of the operand. Names that are no texts count as empty. -/
def isFor (operand : String) (service : Tree) : Bool :=
  (service.get "name").string = operand

theorem isFor_of_isNamed {operand title : String} {service : Tree}
    (h : isNamed (.text title) service = true) :
    isFor operand service = decide (title = operand) := by
  rw [isFor, isNamed_text.mp h]
  rfl

theorem find?_filter (h : ∀ item, isNamed name item = true → keep item = true) :
    find? (items.filter keep) name = find? items name := by
  rw [find?, find?, List.find?_filter]
  congr 1
  funext item
  cases hn : isNamed name item with
  | true => simp [h item hn]
  | false => simp

theorem change_of_missing (h : find? items name = none) : change items name f = items := by
  induction items with
  | nil => rfl
  | cons item rest ih =>
    rw [find?_cons] at h
    split at h
    · cases h
    · rename_i hn
      rw [change, if_neg hn, ih h]

/-- What keeps the services of a name sees a change of them as the change that it is. -/
theorem filter_change (h : ∀ item, isNamed name item = true → keep item = true)
    (hf : ∀ item, isNamed name item = true → keep (f item) = true) :
    (change items name f).filter keep = change (items.filter keep) name f := by
  induction items with
  | nil => rfl
  | cons item rest ih =>
    by_cases hn : isNamed name item = true
    · rw [change, if_pos hn, List.filter_cons_of_pos (hf item hn),
        List.filter_cons_of_pos (h item hn), change, if_pos hn]
    · rw [change, if_neg hn, List.filter_cons, List.filter_cons, ih]
      split
      · rw [change, if_neg hn]
      · rfl

/-- What drops the services of a name does not see a change of them. -/
theorem filter_change_of_dropped (h : ∀ item, isNamed name item = true → keep item = false)
    (hf : ∀ item, isNamed name item = true → keep (f item) = false) :
    (change items name f).filter keep = items.filter keep := by
  induction items with
  | nil => rfl
  | cons item rest ih =>
    by_cases hn : isNamed name item = true
    · rw [change, if_pos hn, List.filter_cons_of_neg (by simp [hf item hn]),
        List.filter_cons_of_neg (by simp [h item hn])]
    · rw [change, if_neg hn, List.filter_cons, List.filter_cons, ih]

end Services

namespace Mode

/-- Whether modes that nobody has checked make an operand independent. -/
def makesIndependent (modes : Tree) (operand : String) : Bool :=
  ((resolveTree modes operand).bind treeIsIndependent).toOption.getD false

end Mode

section Configs

variable {scope : Scope} {modes : Tree} {services after configs : List Tree} {operand : String}

def applyFor (scope : Scope) (independent : Bool) (operand : String) (services : List Tree)
    (config : Tree) : List Tree :=
  Services.change services (.text operand) ((Request.ofConfig config independent).apply scope)

/-- A config of the operand, as far as it can be applied. -/
def isConfigFor (operand : String) (config : Tree) : Bool :=
  config.isMap && Services.isFor operand config

theorem filter_applyConfig {config : Tree}
    (h : (applyConfig scope modes services config).outcome = .ok after) :
    after.filter (Services.isFor operand) =
      if isConfigFor operand config then
        applyFor scope (Mode.makesIndependent modes operand) operand
          (services.filter (Services.isFor operand)) config
      else services.filter (Services.isFor operand) := by
  rcases applyConfig_ok h with ⟨rfl, missing⟩ |
    ⟨service, mode, independent, map, found, resolved, told, rfl⟩
  · -- Nothing is changed, and there is nothing to change.
    split
    · rename_i hc
      obtain ⟨map, named⟩ := Bool.and_eq_true_iff.mp hc
      have title : (config.get "name").string = operand := by simpa [Services.isFor] using named
      rcases missing with other | missing
      · rw [map] at other
        cases other
      · rw [applyFor, Services.change_of_missing]
        rw [Services.find?_filter, ← title, missing]
        intro item hn
        rw [Services.isFor_of_isNamed hn]
        exact decide_eq_true rfl
    · rfl
  · have kept : ∀ item, Services.isNamed (.text (config.get "name").string) item = true →
        Services.isFor operand ((Request.ofConfig config independent).apply scope item) =
          Services.isFor operand item := by
      intro item _
      rw [Services.isFor, Services.isFor, Request.get_name_apply]
    -- The service that changes is one of the operand, or the filter drops it before and after.
    split
    · rename_i hc
      have title : (config.get "name").string = operand := by
        simpa [Services.isFor] using (Bool.and_eq_true_iff.mp hc).2
      have known : Mode.makesIndependent modes operand = independent := by
        rw [Mode.makesIndependent, ← title, resolved]
        simp [Except.bind, told, Except.toOption]
      have here : ∀ item, Services.isNamed (.text (config.get "name").string) item = true →
          Services.isFor operand item = true := fun item hn => by
        rw [Services.isFor_of_isNamed hn]
        exact decide_eq_true title
      rw [Services.filter_change here fun item hn => (kept item hn).trans (here item hn), applyFor,
        known, title]
    · rename_i hc
      have title : (config.get "name").string ≠ operand := fun title => hc (by
        rw [isConfigFor, map, Services.isFor, title]
        simp)
      have elsewhere : ∀ item, Services.isNamed (.text (config.get "name").string) item = true →
          Services.isFor operand item = false := fun item hn => by
        rw [Services.isFor_of_isNamed hn]
        exact decide_eq_false title
      exact Services.filter_change_of_dropped elsewhere
        fun item hn => (kept item hn).trans (elsewhere item hn)

/-- Of configs, an operand sees those that are for it. -/
theorem filter_applyConfigs (h : (applyConfigs scope modes services configs).outcome = .ok after) :
    after.filter (Services.isFor operand) =
      (configs.filter (isConfigFor operand)).foldl
        (applyFor scope (Mode.makesIndependent modes operand) operand)
        (services.filter (Services.isFor operand)) := by
  rw [List.foldl_filter]
  exact Report.foldlM_view (fun items : List Tree => items.filter (Services.isFor operand)) _
    (fun before config _ after hc => filter_applyConfig hc) h

end Configs

/-- What a service asks for, as a wish. Who asks for it does not matter to a summary. -/
def wishOf (independent : Bool) (service : Tree) : Wish where
  operand := service.get "name"
  independent := independent
  owner := ""
  spec := (service.get "spec").entries
  resources := (service.get "resources").items

namespace Wish

variable {scope : Scope} {wish : Wish} {summary : List Tree}

/-- The entry of a summary behind a wish for its operand, where `held` is the entry before it. -/
def onto (scope : Scope) (wish : Wish) (held : Option Tree) : Tree :=
  let before := held.getD (.map [])
  let spec := (wish.governedKinds scope).foldl foldKind (before.get "spec").entries
  let resources := (completeResources wish.resources).foldl (wish.foldResource scope)
    (before.get "resources").items
  let entries :=
    match held with
    | some item => Keyed.insert item.entries "spec" (.map spec)
    | none => [("name", wish.operand), ("spec", .map spec), ("resources", .list [])]
  .map (Keyed.insert entries "resources" (.list resources))

theorem find?_into (operand : String) :
    Services.find? (wish.into scope summary) (.text operand) =
      if wish.operand = .text operand then
        some (wish.onto scope (Services.find? summary (.text operand)))
      else Services.find? summary (.text operand) := by
  unfold into onto
  rw [Services.find?_setResources, Services.find?_setSpec]
  by_cases h : wish.operand = .text operand
  · rw [if_pos h, if_pos h, if_pos h, h]
    cases Services.find? summary (.text operand) <;> rfl
  · rw [if_neg h, if_neg h, if_neg h]

end Wish

section Summary

variable {scope : Scope} {modes : Keyed String} {contributions : List Contribution}
  {summary : List Tree} {operand : String}

/-- The services of contributions that are for an operand, in turn. -/
def servicesFor (operand : String) (contributions : List Contribution) : List Tree :=
  contributions.flatMap fun contribution =>
    contribution.services.filter (Services.isNamed (.text operand))

theorem find?_foldService {owner : String} {before after : List Tree} {service : Tree}
    (h : (foldService scope modes owner before service).outcome = .ok after) :
    Services.find? after (.text operand) =
      if Services.isNamed (.text operand) service then
        some ((wishOf (Mode.isIndependent (Mode.resolve Mode.fallback modes operand)) service).onto
          scope (Services.find? before (.text operand)))
      else Services.find? before (.text operand) := by
  obtain ⟨mode, hm, rfl⟩ := foldService_ok h
  rw [Wish.find?_into]
  by_cases named : service.get "name" = .text operand
  · rw [if_pos (Services.isNamed_text.mpr named), if_pos named]
    rw [named] at hm
    obtain rfl := Except.ok.inj hm
    rfl
  · rw [if_neg fun hn => named (Services.isNamed_text.mp hn), if_neg named]

/-- The entry of an operand in a summary comes from the services for that operand alone. -/
theorem find?_summarize (h : (summarize scope modes contributions).outcome = .ok summary) :
    Services.find? summary (.text operand) =
      (servicesFor operand contributions).foldl
        (fun held service => some
          ((wishOf (Mode.isIndependent (Mode.resolve Mode.fallback modes operand)) service).onto
            scope held)) none := by
  rw [servicesFor, List.foldl_flatMap]
  refine Report.foldlM_view (fun items => Services.find? items (.text operand)) _
    (fun before contribution _ after hc => ?_) h
  rw [List.foldl_filter]
  exact Report.foldlM_view (fun items => Services.find? items (.text operand)) _
    (fun before service _ after ho => find?_foldService ho) hc

end Summary

/-- The services of an operand stay where they are, each brought to the level of the summary. -/
theorem filter_isFor_applySummary (scope : Scope) (modes : Keyed String) (x : Extreme)
    (summary services : List Tree) (operand : String) :
    (applySummary scope modes x summary services).filter (Services.isFor operand) =
      (services.filter (Services.isFor operand)).map (applySummaryTo scope modes x summary) := by
  rw [applySummary, List.filter_map]
  have kept : Services.isFor operand ∘ applySummaryTo scope modes x summary =
      Services.isFor operand := by
    funext service
    rw [Function.comp_apply, Services.isFor, Services.isFor, get_name_applySummaryTo]
  rw [kept]

/-- Of a demand, an operand sees its own entry of the summary, and who owns the operand. -/
theorem filter_applySummary (scope : Scope) (modes : Keyed String) (x : Extreme)
    (summary services : List Tree) (operand : String) :
    (applySummary scope modes x summary services).filter (Services.isFor operand) =
      (services.filter (Services.isFor operand)).map fun service =>
        if service.isMap then
          Target.apply scope
            { extreme := x, operand
              independent := Mode.isIndependent (Mode.resolve Mode.fallback modes operand)
              summed := (Services.find? summary (.text operand)).getD .null } service
        else service := by
  rw [filter_isFor_applySummary]
  refine List.map_congr_left fun service hm => ?_
  have named : (service.get "name").string = operand := by
    simpa [Services.isFor] using (List.mem_filter.mp hm).2
  rw [applySummaryTo, targetOf, named]

namespace Mode

variable {μ : Type}

/-- The mode of a key once another declaration has been added. -/
def prefer (independent : μ → Bool) (held : Option μ) (mode : μ) : Option μ :=
  match held with
  | none => some mode
  | some held => if independent mode && !independent held then some mode else some held

theorem lookup_merge (independent : μ → Bool) (modes incoming : Keyed μ) (key : String) :
    (merge independent modes incoming).lookup key =
      (Keyed.valuesAt incoming key).foldl (prefer independent) (modes.lookup key) := by
  induction incoming generalizing modes with
  | nil => rfl
  | cons entry rest ih =>
    obtain ⟨k, mode⟩ := entry
    have declared : (declare independent modes k mode).lookup key =
        if key = k then prefer independent (modes.lookup k) mode else modes.lookup key := by
      rw [lookup_declare]
      cases modes.lookup k <;> rfl
    have tail := ih (declare independent modes k mode)
    rw [declared] at tail
    simp only [merge, Keyed.valuesAt] at tail ⊢
    by_cases hk : key = k
    · subst hk
      simpa using tail
    · simpa [hk, Ne.symm hk] using tail

/-- What is gathered for a key comes from the declarations for that key alone. -/
theorem lookup_foldl_merge (independent : μ → Bool) (tenants : List (Keyed μ)) (modes : Keyed μ)
    (key : String) :
    (tenants.foldl (merge independent) modes).lookup key =
      (tenants.flatMap fun declared => Keyed.valuesAt declared key).foldl (prefer independent)
        (modes.lookup key) := by
  rw [List.foldl_flatMap]
  exact (List.foldl_hom (fun modes : Keyed μ => modes.lookup key)
    fun modes incoming => (lookup_merge independent modes incoming key).symm).symm

theorem lookup_gather (tenants : List (Keyed String)) (key : String) :
    (gather tenants).lookup key =
      (tenants.flatMap fun modes => Keyed.valuesAt modes key).foldl (prefer isIndependent)
        none :=
  lookup_foldl_merge isIndependent tenants [] key

end Mode

end TenantSizing
