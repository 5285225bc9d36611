import TenantSizing.Proofs.Convergence
import TenantSizing.Proofs.LiveTenants
import TenantSizing.Proofs.Views

namespace TenantSizing

open TenantSizing.Tree Job

namespace Contribution

/-- What a draft holds for a name: its services, and the mode declared for it. -/
def Outline.seen (name : String) (draft : Outline) : List Tree × Option String :=
  (draft.services.filter (Services.isNamed (.text name)), draft.modes.lookup name)

/-- Adds a service of the name, unless the name is empty or there is one of that name. -/
def see (name : String) (seen : List Tree × Option String) (service : Tree) :
    List Tree × Option String :=
  let strategy := (service.get "managementStrategy").string
  if name = "" ∨ (Services.find? seen.1 (.text name)).isSome then seen
  else (seen.1 ++ [normalized service], if strategy = "" then seen.2 else some strategy)

theorem Outline.seen_add (tenant name : String) (draft : Outline) (entry : Tree × Nat) :
    (draft.add tenant entry).seen name =
      if Services.isNamed (.text name) entry.1 then see name (draft.seen name) entry.1
      else draft.seen name := by
  obtain ⟨service, position⟩ := entry
  unfold add
  dsimp only
  by_cases empty : (service.get "name").string = ""
  · rw [if_pos empty]
    split
    · rename_i named
      have title := congrArg Tree.string (Services.isNamed_text.mp named)
      have none : name = "" := title.symm.trans empty
      rw [see, if_pos (.inl none)]
      rfl
    · rfl
  rw [if_neg empty]
  have title := Identity.text_of_string empty
  by_cases same : (service.get "name").string = name
  · have named : Services.isNamed (.text name) service = true :=
      Services.isNamed_text.mpr (same ▸ title)
    have added : Services.isNamed (.text name) (normalized service) = true :=
      Services.isNamed_text.mpr (same ▸ title)
    have known : Services.find? (draft.seen name).1 (.text name) =
        Services.find? draft.services (.text name) := Services.find?_filter fun _ hn => hn
    rw [if_pos named, same, see, known]
    cases Services.find? draft.services (.text name) with
    | some found =>
      rw [if_pos (show (some found).isSome = true from rfl), if_pos (.inr rfl)]
      rfl
    | none =>
      rw [if_neg (show ¬ (none : Option Tree).isSome = true by simp),
        if_neg (not_or.mpr ⟨same ▸ empty, by simp⟩)]
      refine Prod.ext (by simp [seen, added]) ?_
      dsimp only [seen]
      split
      · rfl
      · rw [Keyed.lookup_insert, if_pos rfl]
  · have other : ¬ Services.isNamed (.text name) service = true := fun named =>
      same (congrArg Tree.string (Services.isNamed_text.mp named))
    have added : ¬ Services.isNamed (.text name) (normalized service) = true := fun named =>
      same (congrArg Tree.string (Services.isNamed_text.mp named))
    rw [if_neg other]
    split
    · rfl
    · refine Prod.ext (by simp [seen, added]) ?_
      dsimp only [seen]
      split
      · rfl
      · rw [Keyed.lookup_insert, if_neg (Ne.symm same)]

/-- What the tenant-wide mode declares for a name. -/
def wideMode (name : String) (spec : Tree) : Option String :=
  let profile := (spec.get Mode.tenantWide).string
  if profile = "" ∨ name ≠ Mode.tenantWide then none else some profile

/-- Of a tenant's list of services, a name sees those that have it. -/
theorem seen_outline (tenant name : String) (spec : Tree) :
    (outline tenant spec).seen name =
      ((spec.get "services").items.filter (Services.isNamed (.text name))).foldl (see name)
        ([], wideMode name spec) := by
  have folded : ∀ (entries : List (Tree × Nat)) (start : Outline),
      (entries.foldl (Outline.add tenant) start).seen name =
        entries.foldl (fun seen entry => if Services.isNamed (.text name) entry.1 then
          see name seen entry.1 else seen) (start.seen name) := fun entries start =>
    (List.foldl_hom (Outline.seen name) fun draft entry =>
      (Outline.seen_add tenant name draft entry).symm).symm
  rw [List.foldl_filter, ← List.zipIdx_map_fst 0 (spec.get "services").items, List.foldl_map]
  unfold outline
  dsimp only
  rw [folded]
  congr 1
  refine Prod.ext rfl ?_
  dsimp only [Outline.seen]
  unfold wideMode
  by_cases silent : (spec.get Mode.tenantWide).string = ""
  · simp [silent]
  · by_cases wide : name = Mode.tenantWide <;> simp [silent, wide]

/-- No mode is declared twice. -/
theorem nodup_outline (tenant : String) (spec : Tree) :
    (Keyed.keys (outline tenant spec).modes).Nodup := by
  refine outline_induction (motive := fun _ modes => (Keyed.keys modes).Nodup) tenant spec ?_
    fun _ modes hm service _ _ => ?_
  · split <;> simp [Keyed.keys]
  · split
    · exact hm
    · exact Keyed.nodup_insert hm _ _

end Contribution

namespace SizeTemplate

variable {services template : List Tree} {name : String}

/-- A laid service has the name of the template's. -/
theorem isNamed_fill (template : Tree) (name : String) :
    Services.isNamed (.text name) (template.fill (emptyService (template.get "name"))) =
      Services.isNamed (.text name) template := by
  rw [Bool.eq_iff_iff, Services.isNamed_text, Services.isNamed_text]
  cases template with
  | map entries =>
    have blend := (blend_fill (.map entries) (emptyService ((Tree.map entries).get "name"))).get rfl
      "name"
    have stub : (emptyService ((Tree.map entries).get "name")).get "name" =
        (Tree.map entries).get "name" := rfl
    rw [stub] at blend
    constructor
    · intro laid
      rw [laid] at blend
      generalize (Tree.map entries).get "name" = title at blend
      cases blend <;> rfl
    · intro title
      rw [title] at blend ⊢
      exact blend.text
  | list items => simp [emptyService, fill, get_map]
  | scalar value => cases value <;> simp [emptyService, fill, get_map]

/-- Laying a service of a template, as a name sees it. -/
theorem filter_lay (services : List Tree) (template : Tree) (name : String) :
    (lay services template).filter (Services.isNamed (.text name)) =
      if Services.isNamed (.text name) template then
        lay (services.filter (Services.isNamed (.text name))) template
      else services.filter (Services.isNamed (.text name)) := by
  have named_kept : ∀ (spec item : Tree), Services.isNamed (.text name)
      (.map (Keyed.insert item.entries "spec" spec)) = Services.isNamed (.text name) item := by
    intro spec item
    rw [Bool.eq_iff_iff, Services.isNamed_text, Services.isNamed_text, get_insert,
      if_neg (by decide)]
    rfl
  split
  · rename_i named
    have title := Services.isNamed_text.mp named
    unfold lay
    dsimp only
    rw [title, Services.find?_filter fun _ hn => hn]
    split
    · have laid := (isNamed_fill template name).trans named
      rw [title] at laid
      rw [List.filter_append, List.filter_cons_of_pos laid, List.filter_nil]
    · rename_i current hc
      rw [Services.set_of_found (by rw [hc]; rfl), Services.set_of_found
        (by rw [Services.find?_filter fun _ hn => hn, hc]; rfl)]
      exact Services.filter_change (fun _ hn => hn) fun item hn => (named_kept _ item).trans hn
  · rename_i other
    unfold lay
    dsimp only
    split
    · rw [List.filter_append]
      simp [isNamed_fill, other]
    · rename_i current hc
      rw [Services.set_of_found (by rw [hc]; rfl)]
      have dropped : ∀ item, Services.isNamed (template.get "name") item = true →
          Services.isNamed (.text name) item = false := by
        intro item hn
        rw [Bool.eq_false_iff]
        intro here
        exact other (Services.isNamed_text.mpr
          ((Services.isNamed_of_text (Services.isNamed_text.mp here)).mp hn))
      exact Services.filter_change_of_dropped dropped
        fun item hn => (named_kept _ item).trans (dropped item hn)

end SizeTemplate

namespace Contribution

variable {templates : Option Tree} {size : String} {services laid : List Tree}
  {contribution : Contribution}

/-- The services of a size's template, none if there is no such template. -/
def templateParts (templates : Option Tree) (size : String) : List Tree :=
  if size = "" then [] else ((templateFor templates size).bind Tree.elements?).toOption.getD []

theorem sized_ok {tenant : String}
    (h : (sized templates tenant size services).outcome = .ok laid) :
    laid = (templateParts templates size).foldl SizeTemplate.lay services := by
  unfold sized at h
  unfold templateParts
  split at h
  · rename_i empty
    rw [if_pos empty]
    cases h
    rfl
  · rename_i given
    rw [if_neg given]
    cases ht : templateFor templates size with
    | error failure =>
      rw [ht] at h
      cases h
    | ok template =>
      rw [ht] at h
      simp only [Report.outcome_bind, Report.outcome_ofExcept, Except.bind] at h ⊢
      split at h
      · rename_i null
        obtain rfl := isNull_iff.mp null
        cases h
        rfl
      · simp only [Report.outcome_bind, Report.outcome_ofExcept, Except.bind] at h
        split at h
        · cases h
        rename_i copy hc
        obtain ⟨-, rfl⟩ := Tree.copy_eq_ok hc
        unfold SizeTemplate.apply at h
        cases he : copy.elements? with
        | error failure =>
          rw [he] at h
          cases h
        | ok parts =>
          rw [he] at h
          simp only [Except.bind] at h
          split at h
          · cases h
            rfl
          · cases h

/-- What is read of a tenant: its own services with the template of its size laid under them, and
the modes that it declares. -/
theorem read_ok {object : Tree} (h : (read templates object).outcome = .ok contribution) :
    contribution.services =
        (templateParts templates (object.follow ["spec", "size"]).string).foldl SizeTemplate.lay
          (outlineOf object).services ∧
      contribution.modes = (outlineOf object).modes := by
  obtain ⟨map, copied⟩ := copied_of_read h
  rw [read_of_copied map copied] at h
  simp only [Report.outcome_bind, Report.outcome_note, Except.bind] at h
  split at h
  · cases h
  · rename_i laid hl
    cases h
    exact ⟨sized_ok hl, rfl⟩

theorem filter_laid (parts services : List Tree) (name : String) :
    (parts.foldl SizeTemplate.lay services).filter (Services.isNamed (.text name)) =
      parts.foldl (fun seen part => if Services.isNamed (.text name) part then
        SizeTemplate.lay seen part else seen)
        (services.filter (Services.isNamed (.text name))) :=
  (List.foldl_hom (List.filter (Services.isNamed (.text name)))
    fun services part => (SizeTemplate.filter_lay services part name).symm).symm

end Contribution

/-- Two tenants that agree on who they are, on their size and tenant-wide mode, and on the services
of one operand. The tenant-wide mode is not declared by a service. -/
structure Tenant.AgreeOn (operand : String) (a b : Tree) : Prop where
  metadata : a.get "metadata" = b.get "metadata"
  size : a.follow ["spec", "size"] = b.follow ["spec", "size"]
  profile : a.follow ["spec", Mode.tenantWide] = b.follow ["spec", Mode.tenantWide]
  services : (a.follow ["spec", "services"]).items.filter (Services.isNamed (.text operand)) =
    (b.follow ["spec", "services"]).items.filter (Services.isNamed (.text operand))
  unclaimed : ∀ tenant ∈ [a, b], ∀ service ∈ (tenant.follow ["spec", "services"]).items,
    Services.isNamed (.text Mode.tenantWide) service = false

/-- Two contributions that agree on what they ask of an operand, and on the modes that may hold for
it. -/
structure Contribution.AgreeOn (operand : String) (a b : Contribution) : Prop where
  services : a.services.filter (Services.isNamed (.text operand)) =
    b.services.filter (Services.isNamed (.text operand))
  modes : ∀ key ∈ [operand, Mode.tenantWide],
    Keyed.valuesAt a.modes key = Keyed.valuesAt b.modes key

namespace Tenant

variable {operand : String} {a b : Tree} {these those : List Tree}

theorem AgreeOn.read {templates : Option Tree} {first second : Contribution}
    (h : AgreeOn operand a b) (ha : (Contribution.read templates a).outcome = .ok first)
    (hb : (Contribution.read templates b).outcome = .ok second) :
    Contribution.AgreeOn operand first second := by
  obtain ⟨services, modes⟩ := Contribution.read_ok ha
  obtain ⟨services', modes'⟩ := Contribution.read_ok hb
  have profile : (a.get "spec").get Mode.tenantWide = (b.get "spec").get Mode.tenantWide :=
    h.profile
  have seen : ∀ name, ((a.get "spec").get "services").items.filter (Services.isNamed (.text name)) =
      ((b.get "spec").get "services").items.filter (Services.isNamed (.text name)) →
      (Contribution.outlineOf a).seen name = (Contribution.outlineOf b).seen name := by
    intro name same
    rw [Contribution.outlineOf, Contribution.outlineOf, Contribution.seen_outline,
      Contribution.seen_outline, same, Contribution.wideMode, Contribution.wideMode, profile]
  have own := seen operand h.services
  have wide : ((a.get "spec").get "services").items.filter
        (Services.isNamed (.text Mode.tenantWide)) =
      ((b.get "spec").get "services").items.filter (Services.isNamed (.text Mode.tenantWide)) := by
    have nobody : ∀ tenant ∈ [a, b], (tenant.follow ["spec", "services"]).items.filter
        (Services.isNamed (.text Mode.tenantWide)) = [] := fun tenant hm =>
      List.filter_eq_nil_iff.mpr fun service hs => by simp [h.unclaimed tenant hm service hs]
    exact (nobody a (by simp)).trans (nobody b (by simp)).symm
  refine ⟨?_, fun key hk => ?_⟩
  · have asked : (Contribution.outlineOf a).services.filter (Services.isNamed (.text operand)) =
        (Contribution.outlineOf b).services.filter (Services.isNamed (.text operand)) :=
      congrArg Prod.fst own
    rw [services, services', Contribution.filter_laid, Contribution.filter_laid, h.size, asked]
  · have lookup : ((Contribution.outlineOf a).seen key).2 =
        ((Contribution.outlineOf b).seen key).2 := by
      rcases List.mem_cons.mp hk with rfl | hk
      · rw [own]
      · rw [List.mem_singleton.mp hk, seen _ wide]
    have nodup : ∀ object, (Keyed.keys (Contribution.outlineOf object).modes).Nodup := fun _ =>
      Contribution.nodup_outline _ _
    rw [modes, modes', Keyed.valuesAt_eq (nodup a), Keyed.valuesAt_eq (nodup b)]
    exact congrArg _ lookup

theorem AgreeOn.isLive (h : AgreeOn operand a b) : isLive a = isLive b := by
  simp only [Tenant.isLive, isClone, isBeingDeleted, follow_cons, h.metadata]

theorem AgreeOn.seat (h : AgreeOn operand a b) : seat a = seat b := by
  simp only [Tenant.seat, space, name, follow_cons, h.metadata]

end Tenant

theorem flatMap_eq_of_forall₂ {α β γ : Type} {f : α → List γ} {g : β → List γ} {xs : List α}
    {ys : List β} (h : List.Forall₂ (fun x y => f x = g y) xs ys) :
    xs.flatMap f = ys.flatMap g := by
  induction h with
  | nil => rfl
  | cons first rest ih => rw [List.flatMap_cons, List.flatMap_cons, first, ih]

theorem forall₂_of_read {α β : Type} {R : α → α → Prop} {S : β → β → Prop} {read : α → β → Prop}
    (step : ∀ {a b c d}, R a b → read a c → read b d → S c d) {xs ys : List α} {cs ds : List β}
    (h : List.Forall₂ R xs ys) (hc : List.Forall₂ read xs cs) (hd : List.Forall₂ read ys ds) :
    List.Forall₂ S cs ds := by
  induction h generalizing cs ds with
  | nil =>
    cases hc
    cases hd
    exact .nil
  | cons first rest ih =>
    cases hc with
    | cons hc hcs =>
      cases hd with
      | cons hd hds => exact .cons (step first hc hd) (ih hcs hds)

section Demand

variable {r : Reconciler} {operand : String} {these those : List Tree} {rules : RuleSet}
  {first second : Demand}

/-- What the tenants demand of an operand: its entry of the summary, and whether an independent
controller owns it. -/
structure Demand.AgreeOn (operand : String) (first second : Demand) : Prop where
  entry : Services.find? first.summary (.text operand) =
    Services.find? second.summary (.text operand)
  independent : Mode.isIndependent (Mode.resolve Mode.fallback first.modes operand) =
    Mode.isIndependent (Mode.resolve Mode.fallback second.modes operand)

theorem demanded_agree (h : List.Forall₂ (Tenant.AgreeOn operand) these those)
    (ht : r.demanded rules (.list these) = .ok first)
    (hs : r.demanded rules (.list those) = .ok second) : first.AgreeOn operand second := by
  obtain ⟨few, from_these⟩ := Reconciler.demanded_from ht
  obtain ⟨more, from_those⟩ := Reconciler.demanded_from hs
  obtain ⟨_, hl, read⟩ := from_these.read
  obtain ⟨_, hl', read'⟩ := from_those.read
  cases hl
  cases hl'
  have agree : List.Forall₂ (Contribution.AgreeOn operand) few more :=
    forall₂_of_read (fun h hc hd => h.read hc hd)
      (Tenant.forall₂_live (fun _ _ agree => agree.isLive) (fun _ _ agree => agree.seat) h)
      read read'
  have gathered : ∀ key ∈ [operand, Mode.tenantWide],
      first.modes.lookup key = second.modes.lookup key := by
    intro key hk
    rw [from_these.modes, from_those.modes, Mode.lookup_gather, Mode.lookup_gather,
      List.flatMap_map, List.flatMap_map]
    exact congrArg _ (flatMap_eq_of_forall₂ (agree.imp fun _ _ h => h.modes key hk))
  have resolved : Mode.resolve Mode.fallback first.modes operand =
      Mode.resolve Mode.fallback second.modes operand := by
    rw [Mode.resolve, Mode.resolve, gathered operand (by simp), gathered Mode.tenantWide (by simp)]
  refine ⟨?_, by rw [resolved]⟩
  rw [find?_summarize from_these.summary, find?_summarize from_those.summary, resolved]
  exact congrArg _ (flatMap_eq_of_forall₂ (agree.imp fun _ _ h => h.services))

end Demand

/-- The services of an operand in the stored OperandConfig. -/
def Cluster.servicesOf (cluster : Cluster) (operand : String) : List Tree :=
  cluster.services.filter (Services.isFor operand)

section Reconcile

variable {r : Reconciler} {operand : String} {these those : List Tree} {p q s t : Progress}

/-- Two reconciles leave the services of an operand alike if what they prepare agrees on them. -/
theorem servicesOf_reconcile {started started' : Notice}
    {prepare prepare' : Scope → List Tree → Report (List Tree)} {x : Extreme}
    {unchanged unchanged' : Bool} (config : s.cluster.config = p.cluster.config)
    (first : p.cluster.tenants = .list these) (second : s.cluster.tenants = .list those)
    (agree : List.Forall₂ (Tenant.AgreeOn operand) these those)
    (alike : ∀ scope held prepared prepared', (prepare scope held).outcome = .ok prepared →
      (prepare' scope held).outcome = .ok prepared' →
      prepared.filter (Services.isFor operand) = prepared'.filter (Services.isFor operand))
    (h : run (r.reconcile started prepare x) p = (.ok unchanged, q))
    (h' : run (r.reconcile started' prepare' x) s = (.ok unchanged', t)) :
    q.cluster.servicesOf operand = t.cluster.servicesOf operand := by
  obtain ⟨reading, _⟩ := Reconciler.run_reconcile_ok h
  obtain ⟨reading', _⟩ := Reconciler.run_reconcile_ok h'
  obtain ⟨prepared, hp, services⟩ := Reconciler.services_of_reconcile reading h
  obtain ⟨prepared', hp', services'⟩ := Reconciler.services_of_reconcile reading' h'
  obtain ⟨_, held, rules, demand, stored, listed, parsed, demanded⟩ := reading
  obtain ⟨_, held', rules', demand', stored', listed', parsed', demanded'⟩ := reading'
  obtain rfl := Option.some.inj (stored.symm.trans (config.symm.trans stored'))
  obtain rfl := Tree.list.inj (listed.symm.trans listed')
  obtain rfl := Except.ok.inj (parsed.symm.trans parsed')
  rw [first] at demanded
  rw [second] at demanded'
  have demands := demanded_agree agree demanded demanded'
  rw [Cluster.servicesOf, Cluster.servicesOf, services, services']
  split
  · rfl
  · rw [Reading.level, Reading.level, filter_applySummary, filter_applySummary,
      alike _ _ _ _ hp hp', demands.entry, demands.independent]

/-- Operands do not interfere. Take one stored OperandConfig and tenants that agree on what they ask
of one operand, configs that agree on what is for it, and modes that agree on it and tenant-wide: if
both updates end well, they leave the same services of that operand, and so do two shrinkings. -/
theorem operands_do_not_interfere (config : s.cluster.config = p.cluster.config)
    (first : p.cluster.tenants = .list these) (second : s.cluster.tenants = .list those)
    (agree : List.Forall₂ (Tenant.AgreeOn operand) these those) :
    (∀ (configs configs' : List Tree) (modes modes' : Entries) (unchanged unchanged' : Bool) q t,
      configs.filter (isConfigFor operand) = configs'.filter (isConfigFor operand) →
      (∀ key ∈ [operand, Mode.tenantWide], modes.lookup key = modes'.lookup key) →
      run (r.update configs (.map modes)) p = (.ok unchanged, q) →
      run (r.update configs' (.map modes')) s = (.ok unchanged', t) →
      q.cluster.servicesOf operand = t.cluster.servicesOf operand) ∧
    ∀ (unchanged unchanged' : Bool) q t, run r.shrink p = (.ok unchanged, q) →
      run r.shrink s = (.ok unchanged', t) →
      q.cluster.servicesOf operand = t.cluster.servicesOf operand := by
  constructor
  · intro configs configs' modes modes' unchanged unchanged' q t own declared h h'
    refine servicesOf_reconcile config first second agree ?_ h h'
    intro scope held prepared prepared' hp hp'
    have resolved : Mode.makesIndependent (.map modes) operand =
        Mode.makesIndependent (.map modes') operand := by
      rw [Mode.makesIndependent, Mode.makesIndependent, Mode.resolveTree, Mode.resolveTree,
        Mode.resolve, Mode.resolve, declared operand (by simp), declared Mode.tenantWide (by simp)]
    rw [filter_applyConfigs hp, filter_applyConfigs hp', own, resolved]
  · intro unchanged unchanged' q t h h'
    refine servicesOf_reconcile config first second agree ?_ h h'
    intro scope held prepared prepared' hp hp'
    cases hp
    cases hp'
    rfl

end Reconcile

/-- A service of another operand, malformed and left to an independent controller. -/
def Sample.noise : Tree :=
  .map [("name", .text "web"), ("managementStrategy", .text "turbo"), ("spec", .int 1),
    ("resources", .map [])]

/-- A cluster whose one tenant names these services. -/
def Sample.naming (services : List Tree) : Progress :=
  start [("replicas", .int 2)] [tenant "a" [("size", .text "small"), ("services", .list services)]]

theorem operands_do_not_interfere_noisy :
    (run (Sample.reconciler.update [Sample.service [("replicas", .int 3)]] (.map []))
      (Sample.naming [Sample.service [("replicas", .int 5)]])).2.cluster.servicesOf "db" =
    (run (Sample.reconciler.update [Sample.noise, Sample.service [("replicas", .int 3)], .int 1]
        (.map [("web", .text "vpa")]))
      (Sample.naming [Sample.noise, Sample.service [("replicas", .int 5)], .int 1,
        Sample.noise])).2.cluster.servicesOf "db" := by
  have agree : Tenant.AgreeOn "db"
      (Sample.tenant "a" [("size", .text "small"),
        ("services", .list [Sample.service [("replicas", .int 5)]])])
      (Sample.tenant "a" [("size", .text "small"), ("services", .list
        [Sample.noise, Sample.service [("replicas", .int 5)], .int 1, Sample.noise])]) :=
    ⟨rfl, rfl, rfl, by decide +kernel, by decide +kernel⟩
  have quiet : (run (Sample.reconciler.update [Sample.service [("replicas", .int 3)]] (.map []))
      (Sample.naming [Sample.service [("replicas", .int 5)]])).1 = .ok false := by decide +kernel
  have noisy : (run (Sample.reconciler.update
      [Sample.noise, Sample.service [("replicas", .int 3)], .int 1] (.map [("web", .text "vpa")]))
      (Sample.naming [Sample.noise, Sample.service [("replicas", .int 5)], .int 1,
        Sample.noise])).1 = .ok false := by decide +kernel
  have apart := operands_do_not_interfere (r := Sample.reconciler)
    (p := Sample.naming [Sample.service [("replicas", .int 5)]])
    (s := Sample.naming [Sample.noise, Sample.service [("replicas", .int 5)], .int 1, Sample.noise])
    rfl rfl rfl (.cons agree .nil)
  exact apart.1 _ _ _ _ false false _ _ (by decide +kernel) (by decide +kernel)
    (run_of_outcome quiet) (run_of_outcome noisy)

end TenantSizing
