import TenantSizing.Proofs.Templates
import TenantSizing.Proofs.Totality

namespace TenantSizing

open TenantSizing.Tree

/-- The names of services in turn, where a service has one. -/
def titles (services : List Tree) : List String :=
  (services.map fun service => (service.get "name").string).filter (· ≠ "")

variable {listed : List Tree} {service : Tree} {name : String}

theorem mem_titles : name ∈ titles listed ↔ name ≠ "" ∧ .text name ∈ namesOf listed := by
  rw [titles, namesOf, List.mem_filter, List.mem_map, List.mem_map, decide_eq_true_eq, and_comm]
  refine and_congr_right fun given => exists_congr fun service => and_congr_right fun _ => ?_
  exact ⟨fun title => title ▸ Identity.text_of_string (title ▸ given), fun title => title ▸ rfl⟩

theorem titles_concat (listed : List Tree) (service : Tree) :
    titles (listed ++ [service]) =
      if (service.get "name").string = "" then titles listed
      else titles listed ++ [(service.get "name").string] := by
  rw [titles, List.map_append, List.filter_append]
  by_cases unnamed : (service.get "name").string = "" <;> simp [unnamed, titles]

theorem titles_eq (h : ∀ service ∈ listed, (service.get "name").string ≠ "") :
    titles listed = listed.map fun service => (service.get "name").string :=
  List.filter_eq_self.mpr fun title hm => by
    obtain ⟨service, hs, rfl⟩ := List.mem_map.mp hm
    exact decide_eq_true (h service hs)

namespace Services

theorem entry_of_missing (h : .text name ∉ namesOf listed) : entry listed name = .null := by
  rw [entry, find?_eq_none.mpr h, Option.getD_none]

theorem get_name_entry (h : .text name ∈ namesOf listed) :
    (entry listed name).get "name" = .text name := by
  obtain ⟨found, hf⟩ := Option.isSome_iff_exists.mp (find?_isSome.mpr h)
  rw [entry, hf]
  exact isNamed_text.mp (List.find?_some hf)

/-- One more service is the entry of its name only if there has been none. -/
theorem entry_concat (listed : List Tree) (service : Tree) (name : String) :
    entry (listed ++ [service]) name =
      if .text name ∉ namesOf listed ∧ service.get "name" = .text name then service
      else entry listed name := by
  rw [entry, find?, List.find?_append, ← find?, entry]
  cases hf : find? listed (.text name) with
  | some found =>
    have there : Tree.text name ∈ namesOf listed := find?_isSome.mp (hf ▸ rfl)
    simp [there]
  | none =>
    have missing := find?_eq_none.mp hf
    by_cases named : service.get "name" = .text name
    · simp [missing, named, isNamed_text.mpr named]
    · simp [named, mt isNamed_text.mp named]

/-- Where no name is there twice, a service is the entry of its name. -/
theorem entry_of_mem (distinct : (namesOf listed).Nodup) (hm : service ∈ listed)
    (hn : service.get "name" = .text name) : entry listed name = service := by
  induction listed using List.reverseRecOn with
  | nil => cases hm
  | append_singleton listed added ih =>
    rw [namesOf, List.map_append] at distinct
    obtain ⟨distinct, -, apart⟩ := List.nodup_append.mp distinct
    rw [entry_concat]
    rcases List.mem_append.mp hm with hm | hm
    · have there : Tree.text name ∈ namesOf listed := List.mem_map.mpr ⟨service, hm, hn⟩
      rw [if_neg fun h => h.1 there, ih distinct hm]
    · obtain rfl := List.mem_singleton.mp hm
      exact if_pos ⟨fun there => apart _ there _ (by simp) hn.symm, hn⟩

end Services

namespace Contribution

variable {tenant : String} {start draft : Outline}

/-- The mode that the first service of a name declares for it. -/
def declaredFor (listed : List Tree) (name : String) : Option String :=
  let strategy := ((Services.entry listed name).get "managementStrategy").string
  if name = "" ∨ strategy = "" then none else some strategy

theorem declaredFor_eq_some {name mode : String} :
    declaredFor listed name = some mode ↔
      name ≠ "" ∧ mode ≠ "" ∧
        (Services.entry listed name).get "managementStrategy" = .text mode := by
  unfold declaredFor
  dsimp only
  generalize (Services.entry listed name).get "managementStrategy" = strategy
  by_cases unnamed : name = ""
  · simp [unnamed]
  by_cases silent : strategy.string = ""
  · rw [if_pos (.inr silent)]
    refine ⟨nofun, fun ⟨_, given, he⟩ => absurd silent ?_⟩
    rwa [he]
  · rw [if_neg (by simp [unnamed, silent]), Option.some_inj]
    constructor
    · rintro rfl
      exact ⟨unnamed, silent, Identity.text_of_string silent⟩
    · rintro ⟨-, -, he⟩
      rw [he]
      rfl

/-- How notices name a service of a tenant's list. -/
def placeOf (tenant : String) (position : Nat) : String :=
  tenant ++ ": spec.services[" ++ toString position ++ "]"

/-- What is told of a service, behind services of these names. -/
def told (tenant : String) (before : List String) (service : Tree) (position : Nat) : List Notice :=
  let place := placeOf tenant position
  let name := (service.get "name").string
  if name = "" then [.serviceUnnamed place]
  else if name ∈ before then [.serviceRepeated place name]
  else dropped place service

/-- What is told of a whole list of services. -/
def toldOf (tenant : String) (listed : List Tree) : List Notice :=
  listed.zipIdx.flatMap fun item => told tenant (titles (listed.take item.2)) item.1 item.2

theorem toldOf_concat (tenant : String) (listed : List Tree) (service : Tree) :
    toldOf tenant (listed ++ [service]) =
      toldOf tenant listed ++ told tenant (titles listed) service listed.length := by
  have before : listed.zipIdx.flatMap (fun item =>
        told tenant (titles ((listed ++ [service]).take item.2)) item.1 item.2) =
      toldOf tenant listed := by
    rw [toldOf, List.flatMap_def, List.flatMap_def]
    congr 1
    refine List.map_congr_left fun item hm => ?_
    have bound := (List.mem_zipIdx hm).2.1
    rw [List.take_append_of_le_length (by omega)]
  rw [toldOf, List.zipIdx_append, List.flatMap_append, before]
  simp

/-- A draft that services have been read into: it holds the first of each name, their modes over
those from before, and what is told of all. -/
structure Outline.Holds (tenant : String) (start : Outline) (listed : List Tree) (draft : Outline) :
    Prop where
  services : draft.services =
    (titles listed).eraseDups.map fun name => normalized (Services.entry listed name)
  modes : ∀ name, draft.modes.lookup name = (declaredFor listed name).or (start.modes.lookup name)
  notices : draft.notices = start.notices ++ toldOf tenant listed

/-- A draft knows the names of the services that have been read. -/
theorem Outline.Holds.knows (h : Outline.Holds tenant start listed draft) (name : String) :
    (Services.find? draft.services (.text name)).isSome = true ↔ name ∈ titles listed := by
  have names : namesOf draft.services = (titles listed).eraseDups.map Tree.text := by
    rw [h.services, namesOf, List.map_map]
    exact List.map_congr_left fun name hm =>
      Services.get_name_entry (mem_titles.mp (List.mem_eraseDups.mp hm)).2
  rw [Services.find?_isSome, names]
  simp

/-- A service without a name, or with one that has been read, adds nothing but what is told of
it. -/
theorem Outline.Holds.skip (h : Outline.Holds tenant start listed draft)
    (known : (service.get "name").string ≠ "" → (service.get "name").string ∈ titles listed) :
    Outline.Holds tenant start (listed ++ [service])
      { draft with notices :=
          draft.notices ++ told tenant (titles listed) service listed.length } := by
  have entries : ∀ name ≠ "", Services.entry (listed ++ [service]) name =
      Services.entry listed name := fun name given => by
    rw [Services.entry_concat, if_neg]
    rintro ⟨missing, named⟩
    have title : (service.get "name").string = name := named ▸ rfl
    exact missing (mem_titles.mp (title ▸ known (title ▸ given))).2
  have same : (titles (listed ++ [service])).eraseDups = (titles listed).eraseDups := by
    rw [titles_concat]
    split
    · rfl
    · rename_i given
      rw [eraseDups_concat, enlist, if_pos (List.mem_eraseDups.mpr (known given))]
  refine ⟨?_, fun name => ?_, ?_⟩
  · rw [same, h.services]
    exact List.map_congr_left fun name hm => by
      rw [entries name (mem_titles.mp (List.mem_eraseDups.mp hm)).1]
  · dsimp only
    rw [h.modes, declaredFor, declaredFor]
    by_cases given : name = ""
    · simp [given]
    · rw [entries name given]
  · rw [h.notices, toldOf_concat, List.append_assoc]

/-- A service with a name of its own is the entry of that name. -/
theorem Outline.Holds.take (h : Outline.Holds tenant start listed draft)
    (given : (service.get "name").string ≠ "")
    (fresh : (service.get "name").string ∉ titles listed) :
    let strategy := (service.get "managementStrategy").string
    Outline.Holds tenant start (listed ++ [service])
      { services := draft.services ++ [normalized service]
        modes := if strategy = "" then draft.modes
          else Keyed.insert draft.modes (service.get "name").string strategy
        notices := draft.notices ++ told tenant (titles listed) service listed.length } := by
  intro strategy
  have title := Identity.text_of_string given
  have missing : Tree.text (service.get "name").string ∉ namesOf listed :=
    fun there => fresh (mem_titles.mpr ⟨given, there⟩)
  have own : Services.entry (listed ++ [service]) (service.get "name").string = service := by
    rw [Services.entry_concat, if_pos ⟨missing, title⟩]
  have others : ∀ name ≠ (service.get "name").string,
      Services.entry (listed ++ [service]) name = Services.entry listed name :=
    fun name ne => by
      rw [Services.entry_concat, if_neg]
      rintro ⟨-, named⟩
      exact ne (named ▸ rfl)
  refine ⟨?_, fun name => ?_, ?_⟩
  · have before : draft.services = (titles listed).eraseDups.map fun name =>
        normalized (Services.entry (listed ++ [service]) name) :=
      h.services.trans (List.map_congr_left fun name hm => by
        rw [others name fun he => fresh (he ▸ List.mem_eraseDups.mp hm)])
    rw [titles_concat, if_neg given, eraseDups_concat, enlist,
      if_neg (mt List.mem_eraseDups.mp fresh), List.map_append, List.map_singleton, own, before]
  · dsimp only
    by_cases here : name = (service.get "name").string
    · rw [here, declaredFor, own]
      -- There was no service of the name before, so nothing was declared under it.
      have silent : declaredFor listed (service.get "name").string = none := by
        rw [declaredFor, Services.entry_of_missing missing]
        exact if_pos (.inr rfl)
      by_cases quiet : strategy = ""
      · rw [if_pos quiet, h.modes, silent]
        simp [strategy, quiet]
      · rw [if_neg quiet, Keyed.lookup_insert]
        simp [strategy, quiet, given]
    · have kept : draft.modes.lookup name = (declaredFor (listed ++ [service]) name).or
          (start.modes.lookup name) := by
        rw [h.modes, declaredFor, declaredFor, others name here]
      rw [← kept]
      split
      · rfl
      · rw [Keyed.lookup_insert, if_neg here]
  · rw [h.notices, toldOf_concat, List.append_assoc]

theorem Outline.Holds.add (h : Outline.Holds tenant start listed draft) (service : Tree) :
    Outline.Holds tenant start (listed ++ [service])
      (draft.add tenant (service, listed.length)) := by
  unfold Outline.add
  dsimp only
  by_cases unnamed : (service.get "name").string = ""
  · have skipped := h.skip fun given => absurd unnamed given
    rw [if_pos unnamed]
    rwa [told, if_pos unnamed, placeOf] at skipped
  by_cases known : (service.get "name").string ∈ titles listed
  · have skipped := h.skip fun _ => known
    rw [if_neg unnamed, if_pos ((h.knows _).mpr known)]
    rwa [told, if_neg unnamed, if_pos known, placeOf] at skipped
  · have taken := h.take unnamed known
    rw [if_neg unnamed, if_neg (mt (h.knows _).mp known)]
    rwa [told, if_neg unnamed, if_neg known, placeOf] at taken

/-- Reading a list of services, by induction on the services that have been read. -/
theorem Outline.holds_foldl (none_before : start.services = []) (listed : List Tree) :
    Outline.Holds tenant start listed (listed.zipIdx.foldl (Outline.add tenant) start) := by
  induction listed using List.reverseRecOn with
  | nil =>
    refine ⟨none_before, fun name => ?_, (List.append_nil _).symm⟩
    rw [declaredFor, if_pos (.inr rfl), Option.none_or]
    rfl
  | append_singleton listed service ih =>
    rw [List.zipIdx_append, List.foldl_append]
    simpa using ih.add service

end Contribution

/-- A service as it is asked for: its own settings over those of a template, where a null stands for
a service or a template that there is not. -/
def Contribution.composed (name : String) (template own : Tree) : Tree :=
  .map [("name", .text name), ("spec", (template.get "spec").fill (.map (kinds own))),
    ("resources", .list (overrides own))]

namespace SizeTemplate

variable {services parts : List Tree} {part : Tree}

/-- Of a template that names no service twice, a service meets the one of its name. -/
theorem underlaid_eq (distinct : (namesOf parts).Nodup) (hn : service.get "name" = .text name) :
    underlaid parts service = layUnder (Services.entry parts name) service := by
  induction parts using List.reverseRecOn with
  | nil =>
    have apart : service.get "name" ≠ Tree.null.get "name" := by rw [hn]; simp
    exact (if_neg apart).symm
  | append_singleton parts part ih =>
    rw [namesOf, List.map_append] at distinct
    obtain ⟨distinct, -, apart⟩ := List.nodup_append.mp distinct
    have kept := (get_underlaid parts service (show "name" ≠ "spec" by decide)).trans hn
    have next : underlaid (parts ++ [part]) service = layUnder part (underlaid parts service) := by
      rw [underlaid, List.foldl_append]
      rfl
    rw [next, Services.entry_concat]
    by_cases named : part.get "name" = .text name
    · have missing : Tree.text name ∉ namesOf parts :=
        fun there => apart _ there _ (by simp) named.symm
      have before : underlaid parts service = service := by
        rw [ih distinct, Services.entry_of_missing missing]
        exact if_neg (by rw [hn]; simp)
      rw [if_pos ⟨missing, named⟩, before]
    · have other : (underlaid parts service).get "name" ≠ part.get "name" := by
        rw [kept]
        exact Ne.symm named
      rw [if_neg fun h => named h.2, ← ih distinct, layUnder, if_neg other]

theorem foldl_lay_nil (distinct : (namesOf parts).Nodup)
    (hp : ∀ part ∈ parts, Services.HasName part) :
    parts.foldl lay [] = parts.map fun part => part.fill (emptyService (part.get "name")) := by
  induction parts using List.reverseRecOn with
  | nil => rfl
  | append_singleton parts part ih =>
    have names := namesOf_foldl_lay [] fun other ho => hp other (List.mem_append_left [part] ho)
    obtain ⟨name, hn⟩ := hp part (by simp)
    rw [namesOf, List.map_append] at distinct
    obtain ⟨distinct, -, apart⟩ := List.nodup_append.mp distinct
    have fresh : Services.find? (parts.foldl lay []) (.text name) = none :=
      Services.find?_eq_none.mpr fun there => by
        rw [names] at there
        exact apart _ (by simpa [namesOf, List.removeAll] using there) _ (by simp) hn.symm
    rw [List.foldl_append, List.foldl_cons, List.foldl_nil, lay, hn, fresh,
      ih distinct fun other ho => hp other (List.mem_append_left [part] ho), List.map_append]
    simp [hn]

theorem fill_emptyService (name kind : String) (fields : Entries) :
    (SizeTemplate.service name kind fields).fill (emptyService (.text name)) =
      Contribution.composed name (SizeTemplate.service name kind fields) .null := by
  rw [SizeTemplate.service, emptyService, fill_maps]
  simp [Contribution.composed, Contribution.kinds, Contribution.overrides, Keyed.without, Keyed.has,
    get_map, Tree.entries, Tree.items, fill_scalar]

end SizeTemplate

namespace Contribution

open SizeTemplate

variable {parts : List Tree} {own : Tree}

theorem get_name_composed (name : String) (template own : Tree) :
    (composed name template own).get "name" = .text name := rfl

theorem composed_null (hn : own.get "name" = .text name) :
    composed name .null own = normalized own := by
  rw [composed, normalized, hn, get_null, null_fill]

/-- A service of the tenant over what a template holds for its name. -/
theorem layUnder_normalized (h : Stocked parts) (hn : own.get "name" = .text name) :
    layUnder (Services.entry parts name) (normalized own) =
      composed name (Services.entry parts name) own := by
  by_cases there : Tree.text name ∈ namesOf parts
  · obtain ⟨part, hp, title⟩ := List.mem_map.mp there
    rw [Services.entry_of_mem h.distinct hp title]
    obtain ⟨title', kind, fields, -, rfl⟩ := h.shaped part hp
    have same : (normalized own).get "name" =
        (SizeTemplate.service title' kind fields).get "name" := hn.trans title.symm
    have spec : (normalized own).get "spec" = .map (kinds own) := rfl
    rw [layUnder, if_pos same, spec, orElse_map]
    simp [composed, normalized, Keyed.insert, Tree.entries, SizeTemplate.service, get_map, hn,
      orElse_map]
  · have apart : (normalized own).get "name" ≠ Tree.null.get "name" := by
      rw [show (normalized own).get "name" = .text name from hn]
      simp
    rw [Services.entry_of_missing there, composed_null hn]
    exact if_neg apart

/-- What a template puts behind the services of a list. -/
theorem foldl_lay_absent (h : Stocked parts) (listed : List Tree) :
    (parts.filter fun part => (part.get "name").string ∉ titles listed).foldl lay [] =
      ((titles parts).removeAll (titles listed)).map fun name =>
        composed name (Services.entry parts name) (Services.entry listed name) := by
  have distinct : (namesOf (parts.filter fun part =>
      (part.get "name").string ∉ titles listed)).Nodup :=
    h.distinct.sublist (List.filter_sublist.map _)
  have absent : (titles parts).removeAll (titles listed) =
      (parts.filter fun part => (part.get "name").string ∉ titles listed).map fun part =>
        (part.get "name").string := by
    rw [titles_eq h.string_ne, List.removeAll, List.filter_map]
    exact congrArg _ (List.filter_congr fun part _ => by simp)
  rw [foldl_lay_nil distinct fun part hp => h.hasName part (List.mem_filter.mp hp).1, absent,
    List.map_map]
  refine List.map_congr_left fun part hm => ?_
  obtain ⟨hp, missing⟩ := List.mem_filter.mp hm
  obtain ⟨name, kind, fields, given, rfl⟩ := h.shaped part hp
  have fresh : Tree.text name ∉ namesOf listed := fun there =>
    of_decide_eq_true missing (mem_titles.mpr ⟨given, there⟩)
  have title : ((SizeTemplate.service name kind fields).get "name").string = name := rfl
  rw [Function.comp_apply, title, Services.entry_of_mem h.distinct hp rfl,
    Services.entry_of_missing fresh]
  exact fill_emptyService name kind fields

/-- What a tenant asks for with a template under its list of services: its own services in turn,
each the first of its name, and behind them those of the template that it does not name. -/
theorem foldl_lay_drafted (h : Stocked parts) (listed : List Tree) :
    parts.foldl lay
        ((titles listed).eraseDups.map fun name => normalized (Services.entry listed name)) =
      ((titles listed).eraseDups ++ (titles parts).removeAll (titles listed)).map fun name =>
        composed name (Services.entry parts name) (Services.entry listed name) := by
  have named : ∀ name ∈ (titles listed).eraseDups,
      (Services.entry listed name).get "name" = .text name := fun name hm =>
    Services.get_name_entry (mem_titles.mp (List.mem_eraseDups.mp hm)).2
  have names : namesOf ((titles listed).eraseDups.map fun name =>
      normalized (Services.entry listed name)) = (titles listed).eraseDups.map Tree.text := by
    rw [namesOf, List.map_map]
    exact List.map_congr_left named
  have distinct : ((titles listed).eraseDups.map Tree.text).Nodup :=
    (nodup_eraseDups _).map fun a b same => by simpa using same
  have left : parts.filter (fun part => part.get "name" ∉ (titles listed).eraseDups.map Tree.text) =
      parts.filter fun part => (part.get "name").string ∉ titles listed :=
    List.filter_congr fun part hp => by
      obtain ⟨name, kind, fields, -, rfl⟩ := h.shaped part hp
      simp [SizeTemplate.service, get_map, Tree.string]
  rw [foldl_lay (names ▸ distinct) h.hasName, names, left, foldl_lay_absent h, List.map_append,
    List.map_map]
  refine congrArg (· ++ _) (List.map_congr_left fun name hm => ?_)
  have title : (normalized (Services.entry listed name)).get "name" = .text name := named name hm
  rw [Function.comp_apply, underlaid_eq h.distinct title, layUnder_normalized h (named name hm)]

theorem stocked_templateParts (size : String) : SizeTemplate.Stocked (templateParts none size) := by
  have nothing : SizeTemplate.Stocked [] := ⟨nofun, List.nodup_nil⟩
  unfold templateParts templateFor
  split
  · exact nothing
  cases hl : SizeTemplate.builtin.lookup (Text.lower size) with
  | none => exact nothing
  | some template =>
    obtain ⟨parts, rfl, stocked⟩ := SizeTemplate.stocked_builtin hl
    exact stocked

theorem nodup_asked {parts : List Tree} (h : SizeTemplate.Stocked parts) (listed : List Tree) :
    ((titles listed).eraseDups ++ (titles parts).removeAll (titles listed)).Nodup := by
  have distinct : (titles parts).Nodup := by
    refine List.Nodup.of_map Tree.text ?_
    rw [titles_eq h.string_ne, List.map_map]
    have names : namesOf parts = parts.map fun part => .text (part.get "name").string :=
      List.map_congr_left fun part hp => Identity.text_of_string (h.string_ne part hp)
    exact names ▸ h.distinct
  refine List.nodup_append.mpr ⟨nodup_eraseDups _, distinct.filter _, ?_⟩
  rintro name hn _ hm rfl
  simp [List.removeAll, List.mem_eraseDups.mp hn] at hm

/-- A service that later stages can read without a check: it has a name, and its spec and its
resources hold maps only. -/
structure Normal (service : Tree) : Prop where
  name : ∃ name, name ≠ "" ∧ service.get "name" = .text name
  spec : ∃ kinds, service.get "spec" = .map kinds ∧ ∀ entry ∈ kinds, entry.2.isMap = true
  resources : ∃ items, service.get "resources" = .list items ∧ ∀ item ∈ items, item.isMap = true

theorem maps_fill {kinds : Entries} (hk : ∀ entry ∈ kinds, entry.2.isMap = true) (kind : String)
    (fields : Entries) :
    ∃ filled, (Tree.map [(kind, .map fields)]).fill (.map kinds) = .map filled ∧
      ∀ entry ∈ filled, entry.2.isMap = true := by
  refine ⟨_, fill_maps _ _, fun entry he => ?_⟩
  rcases List.mem_append.mp he with he | he
  · rw [List.map_singleton, List.mem_singleton] at he
    rw [he]
    dsimp only
    cases hl : kinds.lookup kind with
    | none => rw [Option.getD_none, fill_null]; rfl
    | some settings => exact isMap_fill _ (hk _ (Keyed.mem_of_lookup hl))
  · exact hk entry (Keyed.mem_without.mp he).1

theorem normal_composed (h : Stocked parts) (given : name ≠ "") (own : Tree) :
    Normal (composed name (Services.entry parts name) own) where
  name := ⟨name, given, rfl⟩
  spec := by
    have maps : ∀ entry ∈ kinds own, entry.2.isMap = true := fun entry he =>
      (List.mem_filter.mp he).2
    by_cases there : Tree.text name ∈ namesOf parts
    · obtain ⟨part, hp, title⟩ := List.mem_map.mp there
      obtain ⟨title', kind, fields, -, rfl⟩ := h.shaped part hp
      rw [Services.entry_of_mem h.distinct hp title]
      exact maps_fill maps kind fields
    · rw [Services.entry_of_missing there]
      exact ⟨kinds own, null_fill (.map (kinds own)), maps⟩
  resources := ⟨overrides own, rfl, fun item hi => (List.mem_filter.mp hi).2⟩

end Contribution

end TenantSizing
