import TenantSizing.Proofs.Newcomers
import TenantSizing.Proofs.Templates

namespace TenantSizing

open TenantSizing.Tree

namespace Identity

variable {space : String} {identity : Identity} {held : List Tree} {ids : List Identity}
  {resource other : Tree}

/-- Resources that have these identities, one by one. -/
def Listed (space : String) (ids : List Identity) (held : List Tree) : Prop :=
  held.map (read · space) = ids.map .ok

theorem listed_iff : Listed space ids held ↔
    (∀ resource ∈ held, (raw resource).complete = true) ∧
      held.map (fun resource => (raw resource).placedIn space) = ids := by
  unfold Listed
  induction held generalizing ids with
  | nil => cases ids <;> simp
  | cons resource rest ih =>
    cases ids with
    | nil => simp
    | cons identity ids =>
      rw [List.map_cons, List.map_cons, List.cons.injEq, ih, List.forall_mem_cons, List.map_cons,
        List.cons.injEq, read]
      split <;> simp_all [and_left_comm]

theorem read_releasedResource (independent : Bool) (h : read resource space = .ok identity) :
    read (releasedResource independent resource) space = .ok identity := by
  rw [read_eq_ok_iff, holds_releasedResource]
  exact read_eq_ok_iff.mp h

theorem read_merge {policy : MergePolicy} (h : read resource space = .ok identity)
    (ho : read other space = .ok identity) :
    read (resource.merge policy none other) space = .ok identity :=
  read_blend (blend_merge resource other) h (read_eq_ok_iff.mp ho).2

/-- Among resources with identities, the position of an identity is that of the first one. -/
theorem Listed.position?_eq (h : Listed space ids held) (complete : identity.complete = true) :
    identity.position? held space = ids.findIdx? (· = identity) := by
  have same : ∀ resource, identity.holds space resource =
      decide (read resource space = .ok identity) := fun resource => by
    rw [Bool.eq_iff_iff, decide_eq_true_eq, holds_iff_read complete]
  have found := congrArg (List.findIdx? fun id : Except Identity Identity => id = .ok identity) h
  rw [List.findIdx?_map, List.findIdx?_map] at found
  rw [position?, funext same]
  simpa [Function.comp_def] using found

/-- Folding a resource into resources with identities enlists its identity. -/
theorem Listed.foldResource {scope : Scope} (wish : Wish) (h : Listed scope.space ids held)
    (hr : read resource scope.space = .ok identity) :
    Listed scope.space (enlist ids identity) (wish.foldResource scope held resource) := by
  have placed : (raw resource).placedIn scope.space = identity := by
    unfold read at hr
    split at hr
    · exact Except.ok.inj hr
    · cases hr
  have wanted := read_releasedResource wish.independent hr
  have complete := (read_eq_ok_iff.mp hr).1
  unfold Wish.foldResource
  dsimp only
  rw [placed, h.position?_eq complete]
  cases hp : ids.findIdx? (· = identity) with
  | none =>
    have absent : identity ∉ ids := fun there => by
      have apart := List.findIdx?_eq_none_iff.mp hp identity there
      simp at apart
    rw [enlist, if_neg absent, Listed, List.map_append, List.map_append, h]
    simp [wanted]
  | some position =>
    obtain ⟨bound, at_position, -⟩ := List.findIdx?_eq_some_iff_getElem.mp hp
    have at_position : ids[position]? = some identity := by
      rw [List.getElem?_eq_getElem bound, of_decide_eq_true at_position]
    rw [enlist, if_pos (List.mem_of_getElem? at_position), Listed, ← h]
    apply List.ext_getElem?
    intro i
    rw [List.getElem?_map, List.getElem?_map, List.getElem?_modify]
    by_cases here : position = i
    · have reads := congrArg (·[i]?) h
      rw [List.getElem?_map, List.getElem?_map, ← here, at_position] at reads
      rw [← here]
      obtain ⟨other, ho, reads⟩ := Option.map_eq_some_iff.mp reads
      simp [ho, reads, read_merge reads wanted]
    · simp [here]

theorem listed_foldl {scope : Scope} (wish : Wish) (overrides : List Tree)
    (h : Listed scope.space ids held)
    (complete : ∀ resource ∈ overrides, (raw resource).complete = true) :
    Listed scope.space
      ((overrides.map fun resource => (raw resource).placedIn scope.space).foldl enlist ids)
      (overrides.foldl (wish.foldResource scope) held) := by
  induction overrides generalizing ids held with
  | nil => exact h
  | cons resource rest ih =>
    have hr : read resource scope.space = .ok ((raw resource).placedIn scope.space) :=
      if_pos (complete resource (by simp))
    exact ih (h.foldResource wish hr) fun other ho => complete other (by simp [ho])

end Identity

namespace Wish

variable {scope : Scope} {wish : Wish} {operand : String}

theorem keys_foldKinds (spec : Entries) (kinds : List (String × Entries × Tree)) :
    Keyed.keys (kinds.foldl foldKind spec) =
      (kinds.map Prod.fst).foldl enlist (Keyed.keys spec) := by
  rw [List.foldl_map]
  exact (List.foldl_hom Keyed.keys fun spec entry => (Keyed.keys_insert spec entry.1 _).symm).symm

/-- The kinds of a wish that rules govern. -/
theorem governedKinds_names (h : wish.operand = .text operand) :
    (wish.governedKinds scope).map Prod.fst = (Keyed.keys wish.spec).filter fun kind =>
      (scope.rules.forKind? (.text operand) kind).isSome := by
  rw [governedKinds, h, Keyed.keys]
  induction wish.spec with
  | nil => rfl
  | cons entry rest ih =>
    cases hr : scope.rules.forKind? (.text operand) entry.1 with
    | none => simpa [hr] using ih
    | some rules => simpa [hr] using ih

theorem get_onto (scope : Scope) (wish : Wish) (held : Option Tree) :
    let before := held.getD (.map [])
    (wish.onto scope held).get "spec" =
        .map ((wish.governedKinds scope).foldl foldKind (before.get "spec").entries) ∧
      (wish.onto scope held).get "resources" =
        .list ((completeResources wish.resources).foldl (wish.foldResource scope)
          (before.get "resources").items) := by
  refine ⟨(get_insert _ _ _ _).trans ((if_neg (by decide)).trans ?_),
    (get_insert _ _ _ _).trans (if_pos rfl)⟩
  cases held with
  | none => rfl
  | some entry => exact (get_insert _ _ _ _).trans (if_pos rfl)

end Wish

/-- The kinds that services ask for, in turn. -/
def kindsAsked (services : List Tree) : List String :=
  services.flatMap fun service => Keyed.keys (service.get "spec").entries

/-- The identities that the overrides of services name in full, in turn. -/
def identitiesAsked (space : String) (services : List Tree) : List Identity :=
  (completeResources (services.flatMap fun service => (service.get "resources").items)).map
    fun resource => (Identity.raw resource).placedIn space

theorem kindsAsked_concat (services : List Tree) (service : Tree) :
    kindsAsked (services ++ [service]) =
      kindsAsked services ++ Keyed.keys (service.get "spec").entries := by
  simp [kindsAsked]

theorem identitiesAsked_concat (space : String) (services : List Tree) (service : Tree) :
    identitiesAsked space (services ++ [service]) = identitiesAsked space services ++
      (completeResources (service.get "resources").items).map
        fun resource => (Identity.raw resource).placedIn space := by
  simp [identitiesAsked, completeResources]

/-- What a summary holds of an operand, where these services for it have been folded in. -/
structure SummaryEntry (scope : Scope) (operand : String) (services : List Tree) (entry : Tree) :
    Prop where
  kinds : Keyed.keys (entry.get "spec").entries = ((kindsAsked services).filter fun kind =>
    (scope.rules.forKind? (.text operand) kind).isSome).eraseDups
  resources : Identity.Listed scope.space (identitiesAsked scope.space services).eraseDups
    (entry.get "resources").items

section Entry

variable {scope : Scope} {operand : String} {services : List Tree} {service : Tree}
  {independent : Bool}

theorem SummaryEntry.onto {held : Option Tree} (named : service.get "name" = .text operand)
    (h : SummaryEntry scope operand services (held.getD (.map []))) :
    SummaryEntry scope operand (services ++ [service])
      ((wishOf independent service).onto scope held) := by
  obtain ⟨spec, resources⟩ := Wish.get_onto scope (wishOf independent service) held
  constructor
  · rw [spec, Tree.entries, Wish.keys_foldKinds, Wish.governedKinds_names named, h.kinds,
      kindsAsked_concat, List.filter_append, ← foldl_enlist_nil, ← foldl_enlist_nil,
      List.foldl_append]
    rfl
  · rw [resources, Tree.items, identitiesAsked_concat, ← foldl_enlist_nil, List.foldl_append,
      foldl_enlist_nil]
    exact Identity.listed_foldl _ _ h.resources fun resource hr => (List.mem_filter.mp hr).2

theorem summaryEntry_foldl (scope : Scope) (independent : Bool)
    (named : ∀ service ∈ services, service.get "name" = .text operand) :
    SummaryEntry scope operand services ((services.foldl
      (fun held service => some ((wishOf independent service).onto scope held)) none).getD
        (.map [])) := by
  induction services using List.reverseRecOn with
  | nil => exact ⟨rfl, rfl⟩
  | append_singleton services service ih =>
    rw [List.foldl_append, List.foldl_cons, List.foldl_nil, Option.getD_some]
    exact (ih fun other ho => named other (by simp [ho])).onto (named service (by simp))

end Entry

section Summary

variable {scope : Scope} {modes : Keyed String} {contributions : List Contribution}
  {summary : List Tree} {operand : String}

theorem mem_servicesFor {service : Tree} :
    service ∈ servicesFor operand contributions ↔
      (∃ contribution ∈ contributions, service ∈ contribution.services) ∧
        service.get "name" = .text operand := by
  simp only [servicesFor, List.mem_flatMap, List.mem_filter, Services.isNamed_text]
  constructor
  · rintro ⟨contribution, hc, hs, named⟩
    exact ⟨⟨contribution, hc, hs⟩, named⟩
  · rintro ⟨⟨contribution, hc, hs⟩, named⟩
    exact ⟨contribution, hc, hs, named⟩

/-- The names that a summary lists are those of the services folded in. -/
theorem namesOf_summarize
    (named : ∀ contribution ∈ contributions, ∀ service ∈ contribution.services,
      Services.HasName service)
    (h : (summarize scope modes contributions).outcome = .ok summary) :
    namesOf summary =
      (contributions.flatMap fun contribution => namesOf contribution.services).eraseDups := by
  have service : ∀ owner before service after, Services.HasName service →
      (foldService scope modes owner before service).outcome = .ok after →
      namesOf after = enlist (namesOf before) (service.get "name") := by
    intro owner before service after ⟨name, hn⟩ h
    obtain ⟨mode, -, rfl⟩ := foldService_ok h
    rw [Wish.into, hn, Services.setResources, Services.setSpec,
      Services.namesOf_set (by decide) fun _ => rfl, Services.namesOf_set (by decide) fun _ => rfl,
      enlist_enlist]
  rw [← foldl_enlist_nil, List.foldl_flatMap]
  refine Report.foldlM_view namesOf _ (fun before contribution hc after ho => ?_) h
  rw [namesOf.eq_1 contribution.services, List.foldl_map]
  exact Report.foldlM_view namesOf _ (fun before item hi after =>
    service contribution.key before item after (named contribution hc item hi)) ho

/-- Of an operand that is asked for, a summary has an entry with a map and a list. -/
theorem entry_summarize (h : (summarize scope modes contributions).outcome = .ok summary)
    (asked : servicesFor operand contributions ≠ []) :
    ∃ kinds resources, (Services.entry summary operand).get "spec" = .map kinds ∧
      (Services.entry summary operand).get "resources" = .list resources ∧
      SummaryEntry scope operand (servicesFor operand contributions)
        (Services.entry summary operand) := by
  have folded := summaryEntry_foldl scope
    (Mode.isIndependent (Mode.resolve Mode.fallback modes operand))
    fun service (hs : service ∈ servicesFor operand contributions) => (mem_servicesFor.mp hs).2
  have found : Services.find? summary (.text operand) = _ := find?_summarize h
  rw [← found] at folded
  -- The last service folded in has left the map and the list.
  rw [← List.dropLast_append_getLast asked, List.foldl_append, List.foldl_cons, List.foldl_nil]
    at found
  obtain ⟨spec, resources⟩ := Wish.get_onto scope _ _
  rw [Services.entry]
  rw [found] at folded ⊢
  exact ⟨_, _, spec, resources, folded⟩

end Summary

/-- A summary loses nothing and holds nothing twice. Whatever tenants ask for, and whatever the
rules and the modes are, it has one entry for each operand that is asked for, with the kinds that
are asked for and governed by rules, and with one resource for each identity that overrides name in
full. -/
theorem summary_lists_each_once {scope : Scope} {modes : Keyed String}
    {contributions : List Contribution}
    (made : ∀ contribution ∈ contributions,
      ∃ object, (Contribution.read none object).outcome = .ok contribution) :
    ∃ summary, (summarize scope modes contributions).outcome = .ok summary ∧
      namesOf summary =
        (contributions.flatMap fun contribution => namesOf contribution.services).eraseDups ∧
      (namesOf summary).Nodup ∧
      ∀ operand, .text operand ∈ namesOf summary →
        ∃ kinds resources, (Services.entry summary operand).get "spec" = .map kinds ∧
          (Services.entry summary operand).get "resources" = .list resources ∧
          (∀ kind, kind ∈ Keyed.keys kinds ↔
            (∃ contribution ∈ contributions, ∃ service ∈ contribution.services,
              service.get "name" = .text operand ∧
                kind ∈ Keyed.keys (service.get "spec").entries) ∧
              (scope.rules.forKind? (.text operand) kind).isSome = true) ∧
          (∀ resource ∈ resources, (Identity.raw resource).complete = true) ∧
          let identities := resources.map fun resource =>
            (Identity.raw resource).placedIn scope.space
          identities = (identitiesAsked scope.space (servicesFor operand contributions)).eraseDups ∧
            identities.Nodup := by
  have named : ∀ contribution ∈ contributions, ∀ service ∈ contribution.services,
      Services.HasName service := fun contribution hc => by
    obtain ⟨object, read⟩ := made contribution hc
    obtain ⟨map, copied⟩ := Contribution.copied_of_read read
    obtain ⟨other, ends, named⟩ := (Contribution.ends_read map (absurd copied)).ok
    obtain rfl := Except.ok.inj (ends.symm.trans read)
    exact named
  obtain ⟨summary, h, -⟩ := (ends_summarize scope modes named).ok
  have names := namesOf_summarize named h
  refine ⟨summary, h, names, names ▸ nodup_eraseDups _, fun operand there => ?_⟩
  have asked : servicesFor operand contributions ≠ [] := by
    rw [names, List.mem_eraseDups] at there
    obtain ⟨contribution, hc, hn⟩ := List.mem_flatMap.mp there
    obtain ⟨service, hs, hn⟩ := List.mem_map.mp hn
    exact List.ne_nil_of_mem (mem_servicesFor.mpr ⟨⟨contribution, hc, hs⟩, hn⟩)
  obtain ⟨kinds, resources, spec, overrides, entry⟩ := entry_summarize h asked
  obtain ⟨complete, identities⟩ := Identity.listed_iff.mp entry.resources
  have keys := entry.kinds
  rw [spec] at keys
  rw [overrides] at complete identities
  refine ⟨kinds, resources, spec, overrides, fun kind => ?_, complete, identities,
    identities ▸ nodup_eraseDups _⟩
  rw [show Keyed.keys kinds = _ from keys, List.mem_eraseDups, List.mem_filter, kindsAsked,
    List.mem_flatMap]
  refine and_congr_left fun _ =>
    ⟨fun ⟨service, hs, hk⟩ => ?_, fun ⟨contribution, hc, service, hs, hn, hk⟩ => ?_⟩
  · obtain ⟨⟨contribution, hc, hs⟩, hn⟩ := mem_servicesFor.mp hs
    exact ⟨contribution, hc, service, hs, hn, hk⟩
  · exact ⟨service, mem_servicesFor.mpr ⟨⟨contribution, hc, hs⟩, hn⟩, hk⟩

def Sample.configMap (name : String) (fields : Entries) : Tree :=
  .map ([("apiVersion", .text "v1"), ("kind", .text "ConfigMap"), ("name", .text name)] ++ fields)

/-- A tenant that asks for two kinds of `db`, only one of them with rules, and overrides these
resources. -/
def Sample.overriding (name : String) (overrides : List Tree) : Contribution where
  name := name
  space := "ns"
  services := [.map [("name", .text "db"),
    ("spec", .map [("cluster", .map []), ("backup", .map [])]), ("resources", .list overrides)]]
  modes := []

/-- Overrides of one config map with and without its namespace, and of one without a name. -/
def Sample.overriders : List Contribution :=
  [overriding "a" [configMap "x" [], configMap "x" [("namespace", .text "ns")], .map []],
    overriding "b" [configMap "y" [], configMap "x" []]]

theorem summary_lists_each_once_overriding :
    ∃ summary, (summarize (Sample.reconciler.scope Sample.ruleSet) [] Sample.overriders).outcome =
        .ok summary ∧
      namesOf summary = [.text "db"] ∧
      ∃ kinds resources, (Services.entry summary "db").get "spec" = .map kinds ∧
        (Services.entry summary "db").get "resources" = .list resources ∧
        "cluster" ∈ Keyed.keys kinds ∧ "backup" ∉ Keyed.keys kinds ∧
        resources.map (fun resource => (Identity.raw resource).placedIn "ns") =
          [⟨"ns", "v1", "ConfigMap", "x"⟩, ⟨"ns", "v1", "ConfigMap", "y"⟩] := by
  have made : ∀ contribution ∈ Sample.overriders,
      ∃ object, (Contribution.read none object).outcome = .ok contribution := by
    intro contribution hc
    refine ⟨Sample.tenant contribution.name [("services", .list contribution.services)], ?_⟩
    simp only [Sample.overriders, List.mem_cons, List.not_mem_nil, or_false] at hc
    rcases hc with rfl | rfl <;> rfl
  obtain ⟨summary, h, names, -, entries⟩ := summary_lists_each_once made
  have names : namesOf summary = [.text "db"] := names.trans (by decide +kernel)
  obtain ⟨kinds, resources, spec, overrides, keys, -, identities, -⟩ :=
    entries "db" (by simp [names])
  have asked : ∃ contribution ∈ Sample.overriders, ∃ service ∈ contribution.services,
      service.get "name" = .text "db" ∧ "cluster" ∈ Keyed.keys (service.get "spec").entries :=
    ⟨_, List.mem_cons_self, _, List.mem_cons_self, rfl, by decide⟩
  have ungoverned : ¬((Sample.reconciler.scope Sample.ruleSet).rules.forKind? (.text "db")
      "backup").isSome = true := by decide +kernel
  exact ⟨summary, h, names, kinds, resources, spec, overrides,
    (keys "cluster").mpr ⟨asked, by decide +kernel⟩, fun there => ungoverned ((keys _).mp there).2,
    identities.trans (by decide +kernel)⟩

end TenantSizing
