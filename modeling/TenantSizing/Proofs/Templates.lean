import TenantSizing.Proofs.Choices
import TenantSizing.Proofs.FilteredMerges
import TenantSizing.Proofs.Interference
import TenantSizing.Proofs.ReorderedMerges

namespace TenantSizing

open TenantSizing.Tree

namespace Tree

variable {template explicit : Tree} {pass : Scalar → Bool}

/-- Read from the explicit side, filling goes down step by step. -/
theorem stepwise_fill : Stepwise fun _ explicit template => template.fill explicit :=
  placewise_fill.flip.stepwise fun _ explicit template hk he => by
    by_cases ht : template = .null
    · rw [ht, null_fill]
    · exact fill_clash (Ne.symm hk) ht he

theorem Abreast.symm {path : Path} {a b : Tree} (h : Abreast path a b) : Abreast path b a :=
  fun above step below he => by
    obtain ⟨x, y, hx, hy, hk, hc⟩ := h above step below he
    exact ⟨y, x, hy, hx, hk.symm, hk ▸ hc⟩

theorem fill_scalar (template : Tree) {value : Scalar} (hv : value ≠ .null) :
    template.fill (.scalar value) = .scalar value := by
  cases meeting template (.scalar value) with
  | null_left => exact null_fill _
  | null_right => exact absurd rfl hv
  | clash ht he hk => exact fill_clash hk ht he
  | scalars s t hs ht =>
    unfold fill
    cases value <;> cases s <;> first | rfl | contradiction
  | containers hk hc => exact absurd hk hc

/-- Whatever lies under a map, it stays a map. -/
theorem isMap_fill (template : Tree) (h : explicit.isMap = true) :
    (template.fill explicit).isMap = true := by
  cases meeting template explicit with
  | null_left => rwa [null_fill]
  | null_right => cases h
  | clash ht he hk => rwa [fill_clash hk ht he]
  | scalars => cases h
  | containers hk hc => exact placewise_fill.maps none _ _ (isMap_iff_kind.mpr
      (hk.trans (isMap_iff_kind.mp h))) h

theorem orElse_map (entries : Entries) : (Tree.map entries).orElse (.map []) = .map entries := by
  cases entries <;> rfl

theorem child?_key_eq (tree : Tree) (name : String) :
    tree.child? (.key name) = tree.entries.lookup name := by
  cases tree <;> rfl

theorem fill_self {tree : Tree} (h : tree.regular pass = true) : tree.fill tree = tree := by
  induction tree with
  | scalar value =>
    by_cases hv : value = .null
    · rw [hv, fill_null]
    · exact fill_scalar _ hv
  | list items ih =>
    have hi := regular_list.mp h
    rw [fill_lists, align_self fun item hm => ih item hm (hi item hm)]
  | map entries ih =>
    obtain ⟨hn, hv⟩ := regular_map.mp h
    have values : entries.map (fun entry =>
        (entry.1, fill entry.2 ((entries.lookup entry.1).getD .null))) = entries.map id :=
      List.map_congr_left fun entry he => by
        rw [Keyed.lookup_of_mem hn he, Option.getD_some, ih entry he (hv entry he)]
        rfl
    rw [fill_maps, values, List.map_id, Keyed.without_eq_nil fun entry he => Keyed.has_of_mem he,
      List.append_nil]

/-- Filling what has been filled changes nothing, by induction on the template. -/
theorem fill_absorb (h : template.regular pass = true) (explicit : Tree) :
    template.fill (template.fill explicit) = template.fill explicit := by
  induction template generalizing explicit with
  | scalar value =>
    cases meeting (.scalar value) explicit with
    | null_left => rw [null_fill, null_fill]
    | null_right => rw [fill_null, fill_self h]
    | clash ht he hk => rw [fill_clash hk ht he, fill_clash hk ht he]
    | scalars s t hs ht => rw [fill_scalar _ ht, fill_scalar _ ht]
    | containers _ hc => exact absurd rfl hc
  | list xs ih =>
    have regular := regular_list.mp h
    cases meeting (.list xs) explicit with
    | null_right => rw [fill_null, fill_self h]
    | clash ht he hk => rw [fill_clash hk ht he, fill_clash hk ht he]
    | containers hk _ =>
      obtain ⟨ys, rfl⟩ := isList_iff.mp (isList_iff_kind.mpr hk.symm)
      rw [fill_lists, fill_lists, align_absorb (fun x hx => fill_self (regular x hx))
        fun x hx => ih x hx (regular x hx)]
  | map ts ih =>
    obtain ⟨hn, regular⟩ := regular_map.mp h
    cases meeting (.map ts) explicit with
    | null_right => rw [fill_null, fill_self h]
    | clash ht he hk => rw [fill_clash hk ht he, fill_clash hk ht he]
    | containers hk _ =>
      obtain ⟨es, rfl⟩ := isMap_iff.mp (isMap_iff_kind.mpr hk.symm)
      have united : ∀ es, (Tree.map ts).fill (.map es) = .map (unite (fun _ => fill) ts es) :=
        fill_maps ts
      rw [united, united, unite_absorb es hn fun entry he => ih entry he (regular entry he)]

end Tree

namespace Services

/-- Setting a field in the services of two lists sets it in the first list that has the name. -/
theorem set_append (xs ys : List Tree) (name : Tree) (field : String) (value : Tree)
    (stub : Entries) :
    set (xs ++ ys) name field value stub =
      if (find? xs name).isSome then set xs name field value stub ++ ys
      else xs ++ set ys name field value stub := by
  induction xs with
  | nil => simp [find?]
  | cons x xs ih =>
    rw [List.cons_append, set, find?_cons, set]
    by_cases hx : isNamed name x = true
    · simp [hx]
    · rw [if_neg hx, if_neg hx, if_neg hx, ih]
      split <;> rfl

theorem namesOf_set {items : List Tree} {name field : String} {value : Tree} {stub : Entries}
    (hf : field ≠ "name") (hs : (find? items (.text name)).isSome = false →
      (Tree.map stub).get "name" = .text name) :
    namesOf (set items (.text name) field value stub) = enlist (namesOf items) (.text name) := by
  induction items with
  | nil =>
    have title := hs rfl
    simp [set, namesOf, enlist, title]
  | cons item rest ih =>
    rw [set]
    by_cases named : isNamed (.text name) item = true
    · have title := isNamed_text.mp named
      have kept : (Tree.map (Keyed.insert item.entries field value)).get "name" = .text name := by
        rw [get_insert, if_neg (Ne.symm hf)]
        exact title
      rw [if_pos named]
      simp [namesOf, enlist, title, kept]
    · rw [find?_cons, if_neg named] at hs
      rw [if_neg named, namesOf, List.map_cons, namesOf, List.map_cons,
        enlist_cons fun he => named (isNamed_text.mpr he.symm)]
      exact congrArg _ (ih hs)

end Services

namespace SizeTemplate

variable {services parts : List Tree} {part service laid : Tree}

/-- A service with the spec of a template's service laid under its own, if that has its name. -/
def layUnder (part service : Tree) : Tree :=
  if service.get "name" = part.get "name" then
    .map (Keyed.insert service.entries "spec"
      (((part.get "spec").orElse (.map [])).fill ((service.get "spec").orElse (.map []))))
  else service

theorem get_layUnder (part service : Tree) {field : String} (hf : field ≠ "spec") :
    (layUnder part service).get field = service.get field := by
  unfold layUnder
  split
  · rw [get_insert, if_neg hf]
    rfl
  · rfl

theorem lay_append (xs ys : List Tree) (part : Tree) :
    lay (xs ++ ys) part =
      if (Services.find? xs (part.get "name")).isSome then lay xs part ++ ys
      else xs ++ lay ys part := by
  unfold lay
  dsimp only
  rw [Services.find?, List.find?_append]
  cases hx : Services.find? xs (part.get "name") with
  | some current =>
    rw [Services.find?] at hx
    simp [Services.set_append, Services.find?, hx]
  | none =>
    rw [Services.find?] at hx
    rw [hx, Option.none_or, if_neg (by simp)]
    rw [Services.find?]
    cases ys.find? (Services.isNamed (part.get "name")) with
    | none => rw [List.append_assoc]
    | some current => simp [Services.set_append, Services.find?, hx]

/-- Where a name is not there twice, a service of a template changes the service of its name. -/
theorem lay_of_found {name : String} (hn : part.get "name" = .text name)
    (distinct : (namesOf services).Nodup)
    (found : (Services.find? services (.text name)).isSome = true) :
    lay services part = services.map (layUnder part) := by
  induction services with
  | nil => simp [Services.find?] at found
  | cons service rest ih =>
    obtain ⟨absent, distinct⟩ := List.nodup_cons.mp distinct
    have split := lay_append [service] rest part
    rw [List.singleton_append] at split
    rw [split, hn, List.map_cons]
    by_cases named : Services.isNamed (.text name) service = true
    · have title := Services.isNamed_text.mp named
      have others : rest.map (layUnder part) = rest.map id := List.map_congr_left fun other ho =>
        if_neg fun he => absent (List.mem_map.mpr ⟨other, ho, (he.trans hn).trans title.symm⟩)
      rw [others, List.map_id]
      simp [Services.find?, named, lay, hn, Services.set, layUnder, title]
    · have here : (Services.find? [service] (.text name)).isSome = false := by
        simp [Services.find?, named]
      rw [Services.find?_cons, if_neg named] at found
      rw [here, if_neg (by simp), ih distinct found, layUnder,
        if_neg fun he => named (Services.isNamed_text.mpr (he.trans hn)), List.singleton_append]

/-- A service that a template adds has the name that it has in the template. -/
theorem get_name_fill {name : String} (hn : part.get "name" = .text name) :
    (part.fill (emptyService (part.get "name"))).get "name" = .text name :=
  Services.isNamed_text.mp ((isNamed_fill part name).trans (Services.isNamed_text.mpr hn))

theorem namesOf_lay (services : List Tree) (hp : Services.HasName part) :
    namesOf (lay services part) = enlist (namesOf services) (part.get "name") := by
  obtain ⟨name, hn⟩ := hp
  have laid := get_name_fill hn
  unfold lay
  dsimp only
  rw [hn] at laid ⊢
  cases hf : Services.find? services (.text name) with
  | none =>
    rw [enlist, if_neg (Services.find?_eq_none.mp hf), namesOf, List.map_append,
      List.map_singleton, laid, namesOf]
  | some current =>
    exact Services.namesOf_set (by decide) fun missing => by
      rw [hf] at missing
      cases missing

theorem namesOf_foldl_lay (services : List Tree) (hp : ∀ part ∈ parts, Services.HasName part) :
    namesOf (parts.foldl lay services) =
      namesOf services ++ ((namesOf parts).removeAll (namesOf services)).eraseDups := by
  rw [← foldl_enlist, namesOf.eq_1 parts, List.foldl_map]
  induction parts generalizing services with
  | nil => rfl
  | cons part rest ih =>
    rw [List.foldl_cons, List.foldl_cons, ih _ fun other ho => hp other (by simp [ho]),
      namesOf_lay services (hp part (by simp))]

/-- A service with the specs of a whole template laid under its own. -/
def underlaid (parts : List Tree) (service : Tree) : Tree :=
  parts.foldl (fun laid part => layUnder part laid) service

theorem get_underlaid (parts : List Tree) (service : Tree) {field : String} (hf : field ≠ "spec") :
    (underlaid parts service).get field = service.get field :=
  List.foldlRecOn (motive := fun laid : Tree => laid.get field = service.get field) _ _ rfl
    fun laid kept part _ => (get_layUnder part laid hf).trans kept

theorem namesOf_map_underlaid (parts services : List Tree) :
    namesOf (services.map (underlaid parts)) = namesOf services := by
  rw [namesOf, List.map_map]
  exact List.map_congr_left fun service _ => get_underlaid parts service (by decide)

/-- Laying a template changes the services that it names in their places. What it puts behind them
is what it puts behind none, less the names that are there, by induction on the template. -/
theorem foldl_lay (distinct : (namesOf services).Nodup)
    (hp : ∀ part ∈ parts, Services.HasName part) :
    parts.foldl lay services = services.map (underlaid parts) ++
      (parts.filter fun part => part.get "name" ∉ namesOf services).foldl lay [] := by
  induction parts using List.reverseRecOn with
  | nil =>
    have same : services.map (underlaid []) = services := List.map_id services
    rw [same]
    simp
  | append_singleton parts part ih =>
    obtain ⟨name, hn⟩ := hp part (by simp)
    have kept := namesOf_map_underlaid parts services
    have next : ∀ service, underlaid (parts ++ [part]) service =
        layUnder part (underlaid parts service) := fun service => by
      rw [underlaid, List.foldl_append]
      rfl
    rw [List.foldl_append, ih fun other ho => hp other (by simp [ho]), List.foldl_cons,
      List.foldl_nil, lay_append, hn, List.filter_append, List.foldl_append]
    by_cases there : Tree.text name ∈ namesOf services
    · have found := Services.find?_isSome.mpr (kept ▸ there)
      rw [if_pos found, lay_of_found hn (kept ▸ distinct) found, List.map_map]
      simp [next, hn, there, Function.comp_def]
    · have missing :
          ¬(Services.find? (services.map (underlaid parts)) (.text name)).isSome = true :=
        fun found => there (kept ▸ Services.find?_isSome.mp found)
      have same : services.map (underlaid (parts ++ [part])) = services.map (underlaid parts) :=
        List.map_congr_left fun service hs => by
          rw [next, layUnder, if_neg fun he => there ?_]
          rw [get_underlaid parts service (by decide), hn] at he
          exact List.mem_map.mpr ⟨service, hs, he⟩
      rw [if_neg missing, same]
      simp [hn, there]

/-- The names that a template puts behind services, each of them once. -/
theorem namesOf_added (services : List Tree) (hp : ∀ part ∈ parts, Services.HasName part) :
    namesOf ((parts.filter fun part => part.get "name" ∉ namesOf services).foldl lay []) =
      ((namesOf parts).removeAll (namesOf services)).eraseDups := by
  have left : namesOf (parts.filter fun part => part.get "name" ∉ namesOf services) =
      (namesOf parts).removeAll (namesOf services) := by
    rw [namesOf.eq_1 parts, List.removeAll, List.filter_map, namesOf]
    congr 1
    exact List.filter_congr fun part _ => by simp
  rw [namesOf_foldl_lay [] fun part hm => hp part (List.mem_filter.mp hm).1, left]
  simp [namesOf, List.removeAll]

/-- A service that keeps all of its fields but the spec, and of the spec each scalar in its place.
-/
structure Keeps (service laid : Tree) : Prop where
  fields : ∀ field, field ≠ "spec" → laid.child? (.key field) = service.child? (.key field)
  spec : (laid.get "spec").isMap = true
  scalars : ∀ path value, value ≠ .null → (service.get "spec").at? path = some (.scalar value) →
    (laid.get "spec").at? path = some (.scalar value)

theorem Keeps.layUnder (h : Keeps service laid) (part : Tree) :
    Keeps service (layUnder part laid) := by
  obtain ⟨kinds, hk⟩ := isMap_iff.mp h.spec
  unfold SizeTemplate.layUnder
  split
  · refine ⟨fun field hf => ?_, ?_, fun path value hv hs => ?_⟩
    · rw [← h.fields field hf, child?_key_eq, child?_key_eq, Tree.entries, Keyed.lookup_insert,
        if_neg hf]
    · rw [get_insert, if_pos rfl, hk, orElse_map]
      exact isMap_fill _ rfl
    · have held := h.scalars path value hv hs
      rw [hk] at held
      obtain ⟨under, hu⟩ :=
        stepwise_fill.at?_of_first none held ((part.get "spec").orElse (.map []))
      rw [get_insert, if_pos rfl, hk, orElse_map]
      exact hu.trans (congrArg some (fill_scalar under hv))
  · exact h

theorem keeps_underlaid (parts : List Tree) (h : (service.get "spec").isMap = true) :
    Keeps service (underlaid parts service) :=
  List.foldlRecOn (motive := Keeps service) _ _ ⟨fun _ _ => rfl, h, fun _ _ _ hs => hs⟩
    fun _ kept part _ => kept.layUnder part

end SizeTemplate

/-- Filling keeps what is explicit and fills the gaps. -/
theorem explicit_values_survive (template explicit : Tree) :
    let filled := template.fill explicit
    (∀ path value, value ≠ .null → explicit.at? path = some (.scalar value) →
        filled.at? path = some (.scalar value)) ∧
      (∀ path, Abreast path template explicit → (template.at? path).isSome = true →
        explicit.at? path = none ∨ explicit.at? path = some .null →
        filled.at? path = template.at? path) ∧
      (∀ path under above, Abreast path template explicit → template.at? path = some under →
        explicit.at? path = some above → under ≠ .null → above ≠ .null → under.kind ≠ above.kind →
        filled.at? path = some above) ∧
      (template.distinct = true → template.fill filled = filled) ∧
      ∀ services parts : List Tree, (namesOf services).Nodup →
        (∀ service ∈ services, Services.HasName service ∧ (service.get "spec").isMap = true) →
        (∀ part ∈ parts, Services.HasName part) →
        ∃ kept added, SizeTemplate.apply services (.list parts) = .ok (kept ++ added) ∧
          List.Forall₂ SizeTemplate.Keeps services kept ∧
          namesOf added = ((namesOf parts).removeAll (namesOf services)).eraseDups := by
  intro filled
  have met : ∀ path, Abreast path template explicit →
      filled.at? path =
        Option.merge (fun e t => t.fill e) (explicit.at? path) (template.at? path) :=
    fun path hm => stepwise_fill.at?_abreast none hm.symm
  refine ⟨fun path value hv hs => ?_, fun path hm ht he => ?_,
    fun path under above hm hu ho nu no hk => ?_, fun hd => fill_absorb hd explicit,
    fun services parts distinct hs hp => ?_⟩
  · obtain ⟨under, hu⟩ := stepwise_fill.at?_of_first none hs template
    rw [fill_scalar under hv] at hu
    exact hu
  · obtain ⟨under, hu⟩ := Option.isSome_iff_exists.mp ht
    rw [met path hm, hu]
    rcases he with he | he
    · rw [he, Option.merge_none_left]
    · rw [he]
      exact congrArg some (fill_null under)
  · rw [met path hm, hu, ho]
    exact congrArg some (fill_clash hk nu no)
  · have maps : parts.all Tree.isMap = true := List.all_eq_true.mpr fun part hm => by
      obtain ⟨name, hn⟩ := hp part hm
      exact isMap_of_get "name" (by rw [hn]; simp)
    refine ⟨services.map (SizeTemplate.underlaid parts), _, ?_, ?_,
      SizeTemplate.namesOf_added services hp⟩
    · simp only [SizeTemplate.apply, Tree.elements?, Except.bind, maps, if_true]
      rw [SizeTemplate.foldl_lay distinct hp]
    · exact forall₂_map_of_forall fun service hm =>
        SizeTemplate.keeps_underlaid parts (hs service hm).2

/-- A template that names `db` twice and `web` twice. -/
def Sample.stock : List Tree :=
  [service [("cpu", .text "1")],
    .map [("name", .text "web"), ("spec", .map [("ui", .map [("replicas", .int 1)])])],
    .map [("name", .text "web"), ("spec", .map [("ui", .map [("cpu", .text "2")])])],
    service [("memory", .text "1Gi")]]

theorem explicit_values_survive_repeated :
    let filled := Sample.present.fill Sample.requested
    filled.at? [.key "cpu", .index 0] = some (.text "2") ∧
      filled.at? [.key "kept"] = some (.bool true) ∧
      filled.at? [.key "limits", .key "ports"] = some (.text "all") ∧
      Sample.present.fill filled = filled ∧
      ∃ kept added, SizeTemplate.apply [Sample.service [("cpu", .text "3")]]
          (.list Sample.stock) = .ok (kept ++ added) ∧ namesOf added = [.text "web"] := by
  obtain ⟨scalars, gaps, clashes, again, services⟩ :=
    explicit_values_survive Sample.present Sample.requested
  have limits : Abreast [.key "limits", .key "ports"] Sample.present Sample.requested :=
    abreast_cons.mpr ⟨rfl, by decide, .inr ⟨_, _, rfl, rfl,
      abreast_cons.mpr ⟨rfl, by decide, .inl rfl⟩⟩⟩
  obtain ⟨kept, added, laid, -, names⟩ := services [Sample.service [("cpu", .text "3")]]
    Sample.stock (by decide)
    (fun service hs => by
      obtain rfl := List.mem_singleton.mp hs
      exact ⟨⟨"db", rfl⟩, rfl⟩)
    fun part hp => by
      simp only [Sample.stock, List.mem_cons, List.not_mem_nil, or_false] at hp
      rcases hp with rfl | rfl | rfl | rfl <;> exact ⟨_, rfl⟩
  exact ⟨scalars _ _ (by decide) rfl,
    gaps _ (abreast_cons.mpr ⟨rfl, by decide, .inl rfl⟩) rfl (.inl rfl),
    clashes _ _ _ limits rfl rfl (by decide) (by decide) (by decide), again (by decide),
    kept, added, laid, names.trans (by decide)⟩

end TenantSizing
