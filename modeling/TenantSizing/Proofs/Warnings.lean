import TenantSizing.Proofs.NormalForms

namespace TenantSizing

open TenantSizing.Tree

namespace Contribution

variable {tenant : String} {spec service : Tree} {listed : List Tree} {notice : Notice}
  {pass : Scalar → Bool}

theorem nodup_positions (items : List Tree) : (items.zipIdx.map Prod.snd).Nodup := by
  rw [List.zipIdx_map_snd]
  exact List.nodup_range'

theorem nodup_unless (c : Prop) [Decidable c] (notice : Notice) :
    (if c then [] else [notice]).Nodup := by
  by_cases hc : c <;> simp [hc]

/-- Items that a part of them tells apart are told apart by notices of that part. -/
theorem nodup_map_filter {α β : Type} {items : List α} {part : α → β}
    (h : (items.map part).Nodup) {notify : β → Notice} (injective : Function.Injective notify)
    (odd : α → Bool) : ((items.filter odd).map fun item => notify (part item)).Nodup := by
  have parts : ((items.filter odd).map part).Nodup := h.sublist (List.filter_sublist.map part)
  have told := parts.map injective
  rwa [List.map_map] at told

/-- A notice names a part of a service that does not have the shape it should have. -/
inductive Dropped (place : String) (service : Tree) : Notice → Prop
  | spec (given : (service.get "spec").isNull = false) (odd : (service.get "spec").isMap = false) :
    Dropped place service (.specNotAMap place)
  | kind (kind : String) (value : Tree) (there : (kind, value) ∈ (service.get "spec").entries)
    (odd : value.isMap = false) : Dropped place service (.kindNotAMap place kind)
  | resources (given : (service.get "resources").isNull = false)
    (odd : (service.get "resources").items? = none) :
    Dropped place service (.resourcesNotAList place)
  | resource (position : Nat) (item : Tree)
    (there : (service.get "resources").items[position]? = some item)
    (odd : item.isMap = false) : Dropped place service (.resourceNotAMap place position)

theorem mem_dropped {place : String} :
    notice ∈ dropped place service ↔ Dropped place service notice := by
  simp only [dropped, List.mem_append, List.mem_map, List.mem_filter, Bool.not_eq_true',
    Prod.exists, List.mem_zipIdx_iff_getElem?]
  constructor
  · rintro (((h | ⟨kind, value, ⟨there, odd⟩, rfl⟩) | h) | ⟨item, position, ⟨there, odd⟩, rfl⟩)
    · split at h
      · cases h
      · rename_i odd
        obtain rfl := List.mem_singleton.mp h
        simp only [Bool.or_eq_true, not_or, Bool.not_eq_true] at odd
        exact .spec odd.1 odd.2
    · exact .kind _ _ there odd
    · split at h
      · cases h
      · rename_i odd
        obtain rfl := List.mem_singleton.mp h
        simp only [Bool.or_eq_true, not_or, Bool.not_eq_true, Option.isSome_eq_false_iff,
          Option.isNone_iff_eq_none] at odd
        exact .resources odd.1 odd.2
    · exact .resource _ _ there odd
  · intro h
    cases h with
    | spec given odd => exact .inl (.inl (.inl (by simp [given, odd])))
    | kind kind value there odd => exact .inl (.inl (.inr ⟨_, _, ⟨there, odd⟩, rfl⟩))
    | resources given odd => exact .inl (.inr (by simp [given, odd]))
    | resource position item there odd => exact .inr ⟨_, _, ⟨there, odd⟩, rfl⟩

/-- Of a service with distinct keys nothing is told twice. -/
theorem nodup_dropped (h : service.regular pass = true) (hp : pass .null = true) (place : String) :
    (dropped place service).Nodup := by
  have kinds := nodup_map_filter (nodup_entries (regular_get h hp "spec"))
    (fun _ _ same => by injection same : Function.Injective (Notice.kindNotAMap place))
    fun entry => !entry.2.isMap
  have items := nodup_map_filter (nodup_positions (service.get "resources").items)
    (fun _ _ same => by injection same : Function.Injective (Notice.resourceNotAMap place))
    fun item => !item.1.isMap
  rw [dropped]
  refine List.nodup_append.mpr ⟨List.nodup_append.mpr ⟨List.nodup_append.mpr
    ⟨nodup_unless _ _, kinds, ?_⟩, nodup_unless _ _, ?_⟩, items, ?_⟩ <;>
  · intro first hf second hs
    simp only [List.mem_append, List.mem_map, List.mem_ite_nil_left, List.mem_singleton] at hf hs
    grind

/-- A notice names a service that is left out behind these, or a part that is left out of it. -/
inductive Told (tenant : String) (before : List Tree) (position : Nat) (service : Tree) :
    Notice → Prop
  | unnamed (unnamed : (service.get "name").string = "") :
    Told tenant before position service (.serviceUnnamed (placeOf tenant position))
  | repeated (named : (service.get "name").string ≠ "") (earlier : Tree) (there : earlier ∈ before)
    (same : earlier.get "name" = service.get "name") :
    Told tenant before position service
      (.serviceRepeated (placeOf tenant position) (service.get "name").string)
  | part (named : (service.get "name").string ≠ "")
    (first : ∀ earlier ∈ before, earlier.get "name" ≠ service.get "name") (notice : Notice)
    (dropped : Dropped (placeOf tenant position) service notice) :
    Told tenant before position service notice

variable {before : List Tree} {position : Nat}

theorem mem_told :
    notice ∈ told tenant (titles before) service position ↔
      Told tenant before position service notice := by
  have known : (service.get "name").string ≠ "" →
      ((service.get "name").string ∈ titles before ↔
        ∃ earlier ∈ before, earlier.get "name" = service.get "name") := fun named => by
    rw [mem_titles, ← Identity.text_of_string named, namesOf, List.mem_map]
    exact and_iff_right named
  unfold told
  dsimp only
  constructor
  · intro hn
    split at hn
    · rename_i unnamed
      rw [List.mem_singleton.mp hn]
      exact .unnamed unnamed
    rename_i named
    split at hn
    · rename_i repeated
      obtain ⟨earlier, there, same⟩ := (known named).mp repeated
      rw [List.mem_singleton.mp hn]
      exact .repeated named earlier there same
    · rename_i fresh
      exact .part named (fun earlier there same => fresh ((known named).mpr ⟨earlier, there, same⟩))
        notice (mem_dropped.mp hn)
  · intro h
    cases h with
    | unnamed unnamed => simp [unnamed]
    | repeated named earlier there same => simp [named, (known named).mpr ⟨earlier, there, same⟩]
    | part named first _ dropped =>
      have fresh : (service.get "name").string ∉ titles before := fun repeated => by
        obtain ⟨earlier, there, same⟩ := (known named).mp repeated
        exact first earlier there same
      rw [if_neg named, if_neg fresh]
      exact mem_dropped.mpr dropped

theorem mem_toldOf : notice ∈ toldOf tenant listed ↔
    ∃ position service, listed[position]? = some service ∧
      Told tenant (listed.take position) position service notice := by
  rw [toldOf, List.mem_flatMap]
  constructor
  · rintro ⟨⟨service, position⟩, there, told⟩
    exact ⟨position, service, List.mem_zipIdx_iff_getElem?.mp there, mem_told.mp told⟩
  · rintro ⟨position, service, there, told⟩
    exact ⟨(service, position), List.mem_zipIdx_iff_getElem?.mpr there, mem_told.mpr told⟩

/-- The service that a notice is about, by its place. -/
def placeTold : Notice → Option String
  | .serviceUnnamed place | .serviceRepeated place _ | .specNotAMap place | .kindNotAMap place _
  | .resourcesNotAList place | .resourceNotAMap place _ => some place
  | _ => none

theorem Told.place (h : Told tenant before position service notice) :
    placeTold notice = some (placeOf tenant position) := by
  cases h with
  | part named first _ dropped => cases dropped <;> rfl
  | _ => rfl

theorem placeOf_injective (tenant : String) : Function.Injective (placeOf tenant) := by
  intro i j same
  have shown := (String.append_right_inj _).mp ((String.append_left_inj _).mp same)
  rw [Nat.toString_eq_ofList_toDigits, Nat.toString_eq_ofList_toDigits, String.ofList_inj] at shown
  have read := congrArg (Nat.ofDigitChars 10 · 0) shown
  rwa [Nat.ofDigitChars_ten_toDigits, Nat.ofDigitChars_ten_toDigits] at read

/-- Nothing is told twice of a list: not of one service, and not of two, which are at two places. -/
theorem nodup_toldOf (h : ∀ service ∈ listed, service.regular pass = true) (hp : pass .null = true)
    (tenant : String) : (toldOf tenant listed).Nodup := by
  have apart : listed.zipIdx.Pairwise fun a b => a.2 ≠ b.2 :=
    List.pairwise_map.mp (nodup_positions listed)
  refine List.nodup_flatMap.mpr ⟨fun item hm => ?_, apart.imp fun differ notice hf hs => ?_⟩
  · unfold told
    dsimp only
    split
    · exact List.nodup_singleton _
    split
    · exact List.nodup_singleton _
    · exact nodup_dropped (h _ (List.fst_mem_of_mem_zipIdx hm)) hp _
  · have first := (mem_told.mp hf).place
    have second := (mem_told.mp hs).place
    exact differ (placeOf_injective tenant (Option.some.inj (first.symm.trans second)))

/-- A notice names something in a tenant's spec that is left out. -/
inductive Warned (tenant : String) (spec : Tree) : Notice → Prop
  | servicesNotAList (given : (spec.get "services").isNull = false)
    (odd : (spec.get "services").items? = none) : Warned tenant spec (.servicesNotAList tenant)
  | service (position : Nat) (service : Tree)
    (there : (spec.get "services").items[position]? = some service) (notice : Notice)
    (told : Told tenant ((spec.get "services").items.take position) position service notice) :
    Warned tenant spec notice
  | unknownSize (given : (spec.get "size").string ≠ "")
    (unknown : SizeTemplate.builtin.lookup (Text.lower (spec.get "size").string) = none) :
    Warned tenant spec (.unknownSize tenant (spec.get "size").string)

theorem Dropped.level {place : String} (h : Dropped place service notice) :
    notice.level = .warning := by
  cases h <;> rfl

theorem Told.level (h : Told tenant before position service notice) : notice.level = .warning := by
  cases h with
  | part _ _ _ dropped => exact dropped.level
  | _ => rfl

theorem Warned.level (h : Warned tenant spec notice) : notice.level = .warning := by
  cases h with
  | service _ _ _ _ told => exact told.level
  | _ => rfl

/-- All that is told of a tenant. -/
def warnings (tenant : String) (spec : Tree) : List Notice :=
  let services := spec.get "services"
  let size := (spec.get "size").string
  (if services.isNull || services.items?.isSome then [] else [.servicesNotAList tenant]) ++
    toldOf tenant services.items ++
    if size = "" ∨ (SizeTemplate.builtin.lookup (Text.lower size)).isSome then []
    else [.unknownSize tenant size]

theorem mem_warnings : notice ∈ warnings tenant spec ↔ Warned tenant spec notice := by
  simp only [warnings, List.mem_append, mem_toldOf, List.mem_ite_nil_left, List.mem_singleton,
    Bool.or_eq_true, not_or, Bool.not_eq_true, Option.isSome_eq_false_iff,
    Option.isNone_iff_eq_none]
  constructor
  · rintro ((⟨⟨given, odd⟩, rfl⟩ | ⟨position, service, there, told⟩) | ⟨⟨given, unknown⟩, rfl⟩)
    · exact .servicesNotAList given odd
    · exact .service position service there notice told
    · exact .unknownSize given unknown
  · intro h
    cases h with
    | servicesNotAList given odd => exact .inl (.inl ⟨⟨given, odd⟩, rfl⟩)
    | service position service there _ told => exact .inl (.inr ⟨position, service, there, told⟩)
    | unknownSize given unknown => exact .inr ⟨⟨given, unknown⟩, rfl⟩

theorem nodup_warnings (h : spec.regular pass = true) (hp : pass .null = true) (tenant : String) :
    (warnings tenant spec).Nodup := by
  have placed : ∀ notice ∈ toldOf tenant (spec.get "services").items, placeTold notice ≠ none :=
    fun notice hn => by
      obtain ⟨position, service, -, told⟩ := mem_toldOf.mp hn
      rw [told.place]
      simp
  refine List.nodup_append.mpr ⟨List.nodup_append.mpr
    ⟨nodup_unless _ _, nodup_toldOf (regular_items (regular_get h hp _)) hp tenant, ?_⟩,
    nodup_unless _ _, ?_⟩
  · rintro first hf _ hs rfl
    rw [List.mem_singleton.mp (List.mem_ite_nil_left.mp hf).2] at hs
    exact placed _ hs rfl
  · rintro first hf _ hs rfl
    rw [List.mem_singleton.mp (List.mem_ite_nil_left.mp hs).2] at hf
    rcases List.mem_append.mp hf with hf | hf
    · simp at hf
    · exact placed _ hf rfl

theorem notices_sized (tenant size : String) (services : List Tree) :
    (sized none tenant size services).notices =
      if size = "" ∨ (SizeTemplate.builtin.lookup (Text.lower size)).isSome then []
      else [.unknownSize tenant size] := by
  unfold sized templateFor
  by_cases unset : size = ""
  · simp [unset]
  cases hl : SizeTemplate.builtin.lookup (Text.lower size) with
  | none =>
    rw [if_neg unset, if_neg (by simp [unset])]
    rfl
  | some template =>
    have shallow : template.depth ≤ maxCopied :=
      depth_le_of_mem_map (by decide +kernel) (Keyed.mem_of_lookup hl)
    obtain ⟨parts, rfl, -⟩ := SizeTemplate.stocked_builtin hl
    simp [unset, Report.notices_bind, Tree.isNull, copy_of_le shallow]

/-- The services that a tenant lists can be copied if the first of each name can. -/
theorem copied_iff (object : Tree) :
    let listed := ((object.get "spec").get "services").items
    (outlineOf object).Copied ↔ ∀ name ∈ titles listed, Copyable (Services.entry listed name) := by
  intro listed
  have holds : Outline.Holds (tenantOf object) _ listed (outlineOf object) :=
    Outline.holds_foldl rfl _
  rw [Outline.Copied, holds.services, List.forall_mem_map]
  exact forall_congr' fun name => imp_congr List.mem_eraseDups copyable_normalized

/-- Reading a map as a tenant, once its list of services has been read. -/
theorem read_of_outline {object : Tree} (map : object.isMap = true)
    (copied : (outlineOf object).Copied) :
    ∃ contribution, (read none object).outcome = .ok contribution ∧
      let spec := object.get "spec"
      let draft := outline contribution.key spec
      contribution.services =
        (templateParts none (spec.get "size").string).foldl SizeTemplate.lay draft.services ∧
      contribution.modes = draft.modes ∧
      (read none object).notices = draft.notices ++
        (sized none contribution.key (spec.get "size").string draft.services).notices := by
  have named : ∀ service ∈ (outlineOf object).services, Services.HasName service :=
    hasName_outline _ _
  obtain ⟨laid, hl, -⟩ :=
    (ends_sized (tenantOf object) ((object.get "spec").get "size").string named).ok
  rw [read_of_copied map copied]
  simp only [Report.outcome_bind, Report.outcome_note, Report.notices_bind, Report.notices_note,
    Except.bind, hl]
  refine ⟨_, rfl, sized_ok hl, rfl, ?_⟩
  simp [key, outlineOf, tenantOf]

/-- Reading a map as a tenant: what it asks for, the modes it declares, and what is told of it. -/
theorem read_closed {object : Tree} (map : object.isMap = true)
    (copied : (outlineOf object).Copied) :
    ∃ contribution, (read none object).outcome = .ok contribution ∧
      let spec := object.get "spec"
      let listed := (spec.get "services").items
      let parts := templateParts none (spec.get "size").string
      contribution.services =
        ((titles listed).eraseDups ++ (titles parts).removeAll (titles listed)).map (fun name =>
          composed name (Services.entry parts name) (Services.entry listed name)) ∧
      (∀ name ≠ Mode.tenantWide, contribution.modes.lookup name = declaredFor listed name) ∧
      (read none object).notices = warnings contribution.key spec := by
  obtain ⟨contribution, ends, services, modes, notices⟩ := read_of_outline map copied
  have holds : Outline.Holds contribution.key _ _
      (outline contribution.key (object.get "spec")) := Outline.holds_foldl rfl _
  refine ⟨contribution, ends, ?_, fun name apart => ?_, ?_⟩
  · rw [services, holds.services, foldl_lay_drafted (stocked_templateParts _)]
  · rw [modes, holds.modes]
    dsimp only
    split <;> simp [apart]
  · rw [notices, holds.notices, notices_sized]
    rfl

end Contribution

/-- Whatever map a tenant is, it is read as a contribution in normal form. Its services are the
first of each name in the tenant's list and then those of its template that it does not name, each
of them once. A service declares a mode if it is the first of its name and states one. Everything
that is left out is told in one warning. Reading fails only for a kind or a resource override of the
first service of some name that is nested too deep to be copied. -/
theorem contribution_has_normal_form {object : Tree} (map : object.isMap = true) :
    let spec := object.get "spec"
    let listed := (spec.get "services").items
    let parts := Contribution.templateParts none (spec.get "size").string
    let report := Contribution.read none object
    let copyable := ∀ name ∈ titles listed, Contribution.Copyable (Services.entry listed name)
    (¬copyable → report.outcome = .error .tooDeep) ∧
    (copyable → ∃ contribution, report.outcome = .ok contribution ∧
      contribution.services =
        ((titles listed).eraseDups ++ (titles parts).removeAll (titles listed)).map (fun name =>
          Contribution.composed name (Services.entry parts name) (Services.entry listed name)) ∧
      (namesOf contribution.services).Nodup ∧
      (∀ service ∈ contribution.services, Contribution.Normal service) ∧
      (∀ name ≠ Mode.tenantWide, ∀ mode, contribution.modes.lookup name = some mode ↔
        name ≠ "" ∧ mode ≠ "" ∧
          (Services.entry listed name).get "managementStrategy" = .text mode) ∧
      (∀ notice, notice ∈ report.notices ↔ Contribution.Warned contribution.key spec notice) ∧
      (∀ notice ∈ report.notices, notice.level = .warning) ∧
      (object.distinct = true → report.notices.Nodup)) := by
  intro spec listed parts report copyable
  have copied : (Contribution.outlineOf object).Copied ↔ copyable := Contribution.copied_iff object
  refine ⟨fun deep => Contribution.read_of_deep map (mt copied.mp deep), fun shallow => ?_⟩
  obtain ⟨contribution, ends, services, modes, notices⟩ :=
    Contribution.read_closed map (copied.mpr shallow)
  have stocked : SizeTemplate.Stocked parts := Contribution.stocked_templateParts _
  have told : ∀ notice, notice ∈ report.notices ↔
      Contribution.Warned contribution.key spec notice := fun notice => by
    rw [show report.notices = _ from notices]
    exact Contribution.mem_warnings
  refine ⟨contribution, ends, services, ?_, fun service hs => ?_, fun name apart mode => ?_, told,
    fun notice hn => ((told notice).mp hn).level, fun distinct => ?_⟩
  · rw [services, namesOf, List.map_map]
    exact (Contribution.nodup_asked stocked listed).map fun a b same => by
      simpa [Contribution.get_name_composed] using same
  · rw [services] at hs
    obtain ⟨name, hn, rfl⟩ := List.mem_map.mp hs
    refine Contribution.normal_composed stocked ?_ _
    rcases List.mem_append.mp hn with hn | hn
    · exact (mem_titles.mp (List.mem_eraseDups.mp hn)).1
    · exact (mem_titles.mp (List.mem_filter.mp hn).1).1
  · rw [modes name apart]
    exact Contribution.declaredFor_eq_some
  · rw [show report.notices = _ from notices]
    exact Contribution.nodup_warnings (regular_get distinct rfl "spec") rfl _

/-- A tenant with a size of its own spelling, that lists a text for a service and `web` twice. -/
def Sample.careless : Tree :=
  tenant "a" [("size", .text "Small"),
    ("services", .list [.text "db", noise, service [("replicas", .int 3)], noise])]

theorem contribution_has_normal_form_careless :
    ∃ contribution, (Contribution.read none Sample.careless).outcome = .ok contribution ∧
      namesOf contribution.services = [.text "web", .text "db", .text "ibm-im-operator",
        .text "ibm-idp-config-ui-operator", .text "common-service-postgresql"] ∧
      contribution.modes.lookup "web" = some "turbo" ∧
      .serviceRepeated (Contribution.placeOf contribution.key 3) "web" ∈
        (Contribution.read none Sample.careless).notices ∧
      (Contribution.read none Sample.careless).notices.Nodup := by
  have copied : (Contribution.outlineOf Sample.careless).Copied :=
    Contribution.copied_of_depth (by decide +kernel)
  obtain ⟨contribution, ends, services, -, -, modes, told, -, once⟩ :=
    (contribution_has_normal_form (show Sample.careless.isMap = true from rfl)).2
      ((Contribution.copied_iff Sample.careless).mp copied)
  refine ⟨contribution, ends, ?_, (modes "web" (by decide) "turbo").mpr ⟨by decide, by decide, rfl⟩,
    (told _).mpr (.service 3 Sample.noise rfl _ (.repeated (by decide) Sample.noise ?_ rfl)),
    once (by decide +kernel)⟩
  · rw [services]
    decide +kernel
  · decide +kernel

/-- A tenant with a kind of many maps in one another. -/
def Sample.burrowing : Tree :=
  tenant "a" [("services", .list [.map
    [("name", .text "db"),
      ("spec", .map [("cluster", nested (fun tree => .map [("a", tree)]) 600)])]])]

theorem deep_tenant_is_not_read :
    Sample.burrowing.isMap = true ∧
      (Contribution.read none Sample.burrowing).outcome = .error .tooDeep := by
  decide +kernel

end TenantSizing
