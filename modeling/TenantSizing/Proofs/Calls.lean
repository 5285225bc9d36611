import Mathlib.Data.List.Basic
import TenantSizing.Proofs.Runs

namespace TenantSizing

/-- Each method has a queue of its own. -/
theorem Schedule.answer_after {schedule : Schedule} {method other : Method} (h : other ≠ method) :
    (schedule.after method).answer other = schedule.answer other := by
  cases method <;> cases other <;> first | rfl | exact absurd rfl h

/-- How the cluster refuses a call, if it does: as scheduled, or because there is no object to
read. -/
def Cluster.refusal (cluster : Cluster) (call : Call) : Option ApiFault :=
  (cluster.schedule.answer call.method).or
    (if call.method = .get ∧ cluster.config = none then
      some { status := some 404, reason := some "Not Found" }
    else none)

/-- These calls have been made, nothing else has been done outside, and nothing has been stored. -/
structure Trail (calls : List Call) (p q : Progress) : Prop where
  effects : q.effects = p.effects ++ calls.map .call
  config : q.cluster.config = p.cluster.config
  answer : ∀ method, method ∉ calls.map Call.method →
    q.cluster.schedule.answer method = p.cluster.schedule.answer method

namespace Trail

variable {calls more : List Call} {p q s : Progress}

theorem trans (h : Trail calls p q) (hs : Trail more q s) : Trail (calls ++ more) p s where
  effects := by rw [hs.effects, h.effects, List.map_append, List.append_assoc]
  config := hs.config.trans h.config
  answer method hm := by
    rw [List.map_append, List.mem_append, not_or] at hm
    exact (hs.answer method hm.2).trans (h.answer method hm.1)

/-- A call by another method is refused just as it would have been before. -/
theorem refusal (h : Trail calls p q) {call : Call} (hm : call.method ∉ calls.map Call.method) :
    q.cluster.refusal call = p.cluster.refusal call := by
  unfold Cluster.refusal
  rw [h.answer call.method hm, h.config]

theorem of_notices (p : Progress) (notices : List Notice) :
    Trail [] p { p with notices := notices } :=
  ⟨by simp, rfl, fun _ _ => rfl⟩

theorem of_call (p : Progress) (call : Call) (notices : List Notice) :
    Trail [call] p { p with
      effects := p.effects ++ [.call call]
      cluster := { p.cluster with schedule := p.cluster.schedule.after call.method }
      notices := notices } where
  effects := rfl
  config := rfl
  answer method hm := Schedule.answer_after fun he => hm (by simp [he])

end Trail

/-- The work has failed for this refusal. -/
def FailsFor {α : Type} (fault : ApiFault) (outcome : Except Failure α) : Prop :=
  ∃ what, outcome = .error (.ofApi what fault)

theorem FailsFor.map {α β : Type} {fault : ApiFault} {outcome : Except Failure α} {f : α → β}
    (h : FailsFor fault outcome) : FailsFor fault (outcome.map f) := by
  obtain ⟨what, rfl⟩ := h
  exact ⟨what, rfl⟩

theorem FailsFor.retype {α β : Type} {fault : ApiFault} {failure : Failure}
    (h : FailsFor fault (.error failure : Except Failure α)) :
    FailsFor fault (.error failure : Except Failure β) := by
  obtain ⟨what, he⟩ := h
  exact ⟨what, congrArg Except.error (Except.error.inj he)⟩

theorem not_failsFor_ok {α : Type} {fault : ApiFault} {value : α} :
    ¬FailsFor fault (.ok value : Except Failure α) := by
  rintro ⟨what, he⟩
  cases he

theorem failsFor_of_answer {α : Type} {cluster : Cluster} {call : Call} {fault other : ApiFault}
    (what : String) (ha : cluster.schedule.answer call.method = some fault)
    (ho : cluster.refusal call = some other) :
    FailsFor other (.error (.ofApi what fault) : Except Failure α) := by
  rw [Cluster.refusal, ha, Option.some_or] at ho
  exact ⟨what, by rw [Option.some.inj ho]⟩

/-- A call that did not make the work fail has been accepted. -/
theorem accepted_of_ok {α : Type} {cluster : Cluster} {call : Call} {value : α}
    (h : ∀ fault, cluster.refusal call = some fault →
      FailsFor fault (.ok value : Except Failure α)) : cluster.refusal call = none := by
  cases hc : cluster.refusal call with
  | none => rfl
  | some fault => exact absurd (h fault hc) not_failsFor_ok

/-- A call has been made, and if it was refused, the work has failed for that. -/
structure Called {α : Type} (call : Call) (p : Progress) (outcome : Except Failure α)
    (q : Progress) : Prop where
  trail : Trail [call] p q
  refused : ∀ fault, p.cluster.refusal call = some fault → FailsFor fault outcome

namespace Job

variable {α β : Type} {call : Call} {p q : Progress} {job : Job α} {next : α → Job β}

/-- The job does nothing outside. -/
def Silent (job : Job α) : Prop :=
  ∀ p, Trail [] p (run job p).2

theorem Silent.of_run (h : Silent job) {outcome : Except Failure α}
    (hr : run job p = (outcome, q)) : Trail [] p q := by
  have := h p
  rwa [hr] at this

theorem Silent.bind (h : Silent job) (hn : ∀ a, Silent (next a)) : Silent (job >>= next) := by
  intro p
  rw [run_bind]
  rcases hr : run job p with ⟨_ | a, mid⟩
  · exact h.of_run hr
  · exact (h.of_run hr).trans (hn a mid)

theorem silent_pure (value : α) : Silent (pure value : Job α) := fun p => .of_notices p _

theorem silent_fail (failure : Failure) : Silent (fail failure : Job α) := fun p => .of_notices p _

theorem silent_note (notice : Notice) : Silent (note notice) := fun p => .of_notices p _

theorem silent_ofReport (report : Report α) : Silent (ofReport report) := by
  intro p
  rw [run_ofReport]
  exact .of_notices p _

/-- The job makes just this call. -/
def Makes (call : Call) (job : Job α) : Prop :=
  ∀ p outcome q, run job p = (outcome, q) → Called call p outcome q

theorem Makes.bind (h : Makes call job) (hn : ∀ a, Silent (next a)) :
    Makes call (job >>= next) := by
  intro p outcome q hr
  rw [run_bind] at hr
  rcases hj : run job p with ⟨failure | a, mid⟩
  · rw [hj] at hr
    cases hr
    obtain ⟨trail, refused⟩ := h _ _ _ hj
    exact ⟨trail, fun fault hf => (refused fault hf).retype⟩
  · rw [hj] at hr
    obtain ⟨trail, refused⟩ := h _ _ _ hj
    refine ⟨trail.trans ((hn a).of_run hr), fun fault hf => ?_⟩
    exact absurd (refused fault hf) not_failsFor_ok

/-- Two calls in turn: either the job ends with the first one, or that has been accepted. -/
theorem Makes.andThen {other : Call} (h : Makes call job) (hn : ∀ a, Makes other (next a))
    (hm : other.method ≠ call.method) {outcome : Except Failure β}
    (hr : run (job >>= next) p = (outcome, q)) :
    (∃ failure, outcome = .error failure) ∧ Called call p outcome q ∨
      p.cluster.refusal call = none ∧ Trail [call, other] p q ∧
        ∀ fault, p.cluster.refusal other = some fault → FailsFor fault outcome := by
  rw [run_bind] at hr
  rcases hj : run job p with ⟨failure | a, mid⟩
  · rw [hj] at hr
    cases hr
    obtain ⟨trail, refused⟩ := h _ _ _ hj
    exact .inl ⟨⟨failure, rfl⟩, trail, fun fault hf => (refused fault hf).retype⟩
  · rw [hj] at hr
    have first := h _ _ _ hj
    have later := hn a _ _ _ hr
    refine .inr ⟨accepted_of_ok first.refused, first.trail.trans later.trail, fun fault hf => ?_⟩
    refine later.refused fault ?_
    rw [first.trail.refusal (by simpa using hm)]
    exact hf

end Job

open Job

namespace Access

theorem makes_getConfig (space name : String) :
    Makes (.get space name) (getConfig space name) := by
  intro p outcome q h
  unfold getConfig at h
  rw [run_bind, run_request] at h
  dsimp only [Call.method] at h
  split at h
  · rename_i _ fault ha
    cases h
    exact ⟨.of_call p _ _, fun other ho => failsFor_of_answer _ ha ho⟩
  · rename_i ha
    rw [run_bind, run_get] at h
    dsimp only at h
    split at h
    · rename_i config hc
      cases h
      refine ⟨.of_call p (.get space name) _, fun other ho => ?_⟩
      simp [Cluster.refusal, Call.method, ha, hc] at ho
    · rename_i hc
      cases h
      refine ⟨.of_call p (.get space name) _,
        fun other ho => ⟨"OperandConfig " ++ configKey space name, ?_⟩⟩
      have he : { status := some 404, reason := some "Not Found" } = other := by
        simpa [Cluster.refusal, Call.method, ha, hc] using ho
      rw [he]

theorem makes_listTenants : Makes (.list liveSelector) (listTenants liveSelector) := by
  intro p outcome q h
  unfold listTenants at h
  rw [run_bind, run_request] at h
  dsimp only [Call.method] at h
  split at h
  · rename_i _ fault ha
    cases h
    exact ⟨.of_call p _ _, fun other ho => failsFor_of_answer _ ha ho⟩
  · rename_i ha
    cases h
    refine ⟨.of_call p (.list liveSelector) _, fun other ho => ?_⟩
    simp [Cluster.refusal, Call.method, ha] at ho

end Access

namespace Reconciler

variable (r : Reconciler)

theorem makes_fetch : Makes (.get r.space r.configName) r.fetch := by
  unfold fetch
  refine (Access.makes_getConfig _ _).bind fun config => ?_
  split
  · exact (silent_ofReport _).bind fun copies => silent_pure _
  · exact silent_fail _

theorem makes_aggregate (services : List Tree) (rules : RuleSet) (x : Extreme) :
    Makes (.list Access.liveSelector) (r.aggregate services rules x) := by
  unfold aggregate demand liveTenants
  refine Makes.bind (Makes.bind (Access.makes_listTenants.bind fun tenants => ?_) fun live => ?_)
    fun demand => silent_ofReport _
  · exact (silent_ofReport _).bind fun items => silent_pure _
  · exact silent_ofReport _

/-- How a write ends. No call is made by a dry run, nor for an object without readable metadata. -/
inductive Wrote (dryRun : Bool) (p q : Progress) : Except Failure Unit → Prop where
  | spared (dry : dryRun = true) (effects : q.effects = p.effects) : Wrote dryRun p q (.ok ())
  | unnamed (failure : Failure) (effects : q.effects = p.effects) :
      Wrote dryRun p q (.error failure)
  | called {outcome : Except Failure Unit} (space name : Tree) (wet : dryRun = false)
      (effects : q.effects = p.effects ++ [.call (.replace space name)])
      (refused : ∀ fault, p.cluster.refusal (.replace space name) = some fault →
        FailsFor fault outcome) : Wrote dryRun p q outcome

theorem run_write {config : Tree} {services : List Tree} {unchanged : Bool} {p q : Progress}
    {outcome : Except Failure Unit}
    (h : run (r.write config services unchanged) p = (outcome, q)) :
    Wrote r.dryRun p q outcome := by
  unfold write at h
  split at h
  · rename_i dry
    cases h
    exact .spared dry rfl
  · rename_i wet
    have wet : r.dryRun = false := by simpa using wet
    rw [run_bind, run_replaceConfig] at h
    cases hm : Access.metadata (withServices config services) with
    | error failure =>
      rw [hm] at h
      cases h
      exact .unnamed failure rfl
    | ok fields =>
      rw [hm] at h
      dsimp only at h
      cases ha : p.cluster.schedule.answer .replace with
      | some fault =>
        rw [ha] at h
        cases h
        exact .called _ _ wet rfl fun other ho => failsFor_of_answer _ ha ho
      | none =>
        rw [ha] at h
        dsimp only at h
        split at h
        · cases h
          refine .called _ _ wet rfl fun other ho => ?_
          simp [Cluster.refusal, Call.method, ha] at ho
        · cases h
          refine .called _ _ wet rfl fun other ho => ?_
          simp [Cluster.refusal, Call.method, ha] at ho

end Reconciler

/-- The calls of one reconcile that ends in this way, on a cluster as the reconcile found it. They
are made in turn, only the last of them may have been refused, and then the reconcile fails for it.
-/
structure InTurn (r : Reconciler) (cluster : Cluster) {α : Type} (outcome : Except Failure α)
    (calls : List Call) : Prop where
  planned : ∃ space name, calls <+:
    [.get r.space r.configName, .list Access.liveSelector, .replace space name]
  begun : calls ≠ []
  answered : ∀ call ∈ calls.dropLast, cluster.refusal call = none
  refused : ∀ call ∈ calls, ∀ fault, cluster.refusal call = some fault → FailsFor fault outcome

namespace Reconciler

section Calls

variable (r : Reconciler) (started : Notice) (prepare : Scope → List Tree → Report (List Tree))
  (x : Extreme)

/-- A reconcile up to its listing of tenants. -/
def opened : Job (Tree × List Tree × RuleSet × List Tree) := do
  let (config, held) ← r.fetch
  let rules ← r.loadRules
  note started
  let prepared ← ofReport (prepare (r.scope rules) held)
  pure (config, held, rules, prepared)

/-- A reconcile up to its write. -/
def leveled : Job (Tree × List Tree × Bool) := do
  let (config, held, rules, prepared) ← r.opened started prepare
  let services ← r.aggregate prepared rules x
  let unchanged ← ofReport (.ofExcept ((Tree.list held).compare (.list services)))
  pure (config, services, unchanged)

theorem reconcile_eq : r.reconcile started prepare x = (do
    let (config, services, unchanged) ← r.leveled started prepare x
    r.write config services unchanged
    pure unchanged) := by
  simp only [reconcile, leveled, opened, bind_assoc, pure_bind]

theorem makes_opened : Makes (.get r.space r.configName) (r.opened started prepare) := by
  unfold opened
  refine r.makes_fetch.bind fun found => ?_
  refine (silent_ofReport _).bind fun rules => ?_
  refine (silent_note _).bind fun _ => ?_
  exact (silent_ofReport _).bind fun prepared => silent_pure _

end Calls

variable {r : Reconciler} {started : Notice} {prepare : Scope → List Tree → Report (List Tree)}
  {x : Extreme} {p q : Progress}

/-- The calls up to the write. Either the reconcile ends with them, or both have been accepted. -/
theorem run_leveled {outcome : Except Failure (Tree × List Tree × Bool)}
    (h : run (r.leveled started prepare x) p = (outcome, q)) :
    (∃ failure calls, outcome = .error failure ∧
        InTurn r p.cluster (.error failure : Except Failure Bool) calls ∧ Trail calls p q) ∨
      (∃ found, outcome = .ok found) ∧
        p.cluster.refusal (.get r.space r.configName) = none ∧
        p.cluster.refusal (.list Access.liveSelector) = none ∧
        Trail [.get r.space r.configName, .list Access.liveSelector] p q := by
  have calls := Makes.andThen (r.makes_opened started prepare)
    (fun found => (r.makes_aggregate _ _ x).bind fun services =>
      (silent_ofReport _).bind fun unchanged => silent_pure _)
    (by simp [Call.method]) h
  cases outcome with
  | error failure =>
    refine .inl ⟨failure, ?_⟩
    rcases calls with ⟨_, called⟩ | ⟨accepted, trail, refused⟩
    · refine ⟨_, rfl, ⟨⟨.null, .null, by simp⟩, by simp, by simp, ?_⟩, called.trail⟩
      simpa using fun fault hf => (called.refused fault hf).retype
    · refine ⟨_, rfl, ⟨⟨.null, .null, by simp⟩, by simp, by simpa using accepted, ?_⟩, trail⟩
      simpa [accepted] using fun fault hf => (refused fault hf).retype
  | ok found =>
    rcases calls with ⟨⟨failure, he⟩, _⟩ | ⟨accepted, trail, refused⟩
    · cases he
    · exact .inr ⟨⟨found, rfl⟩, accepted, accepted_of_ok refused, trail⟩

/-- A reconcile makes its calls in turn. If it ends well it has made all of them, but for the write
in a dry run. -/
theorem run_reconcile_calls {outcome : Except Failure Bool}
    (h : run (r.reconcile started prepare x) p = (outcome, q)) :
    ∃ calls, InTurn r p.cluster outcome calls ∧ q.effects = p.effects ++ calls.map .call ∧
      ∀ unchanged, outcome = .ok unchanged →
        calls.map Call.method = .get :: .list :: if r.dryRun then [] else [.replace] := by
  rw [reconcile_eq, run_bind] at h
  rcases hl : run (r.leveled started prepare x) p with ⟨leveled, mid⟩
  rw [hl] at h
  rcases run_leveled hl with ⟨failure, calls, rfl, turn, trail⟩ |
    ⟨⟨⟨config, services, unchanged⟩, rfl⟩, accepted, listed, trail⟩
  · cases h
    exact ⟨calls, turn, trail.effects, by simp⟩
  · dsimp only at h
    rw [run_bind] at h
    rcases hw : run (r.write config services unchanged) mid with ⟨written, last⟩
    rw [hw] at h
    have wrote := r.run_write hw
    cases wrote with
    | spared dry effects =>
      cases h
      refine ⟨_, ⟨⟨.null, .null, by simp⟩, by simp, by simpa using accepted, ?_⟩,
        effects.trans trail.effects, ?_⟩
      · simp [accepted, listed]
      · simp [dry, Call.method]
    | unnamed failure effects =>
      cases h
      refine ⟨_, ⟨⟨.null, .null, by simp⟩, by simp, by simpa using accepted, ?_⟩,
        effects.trans trail.effects, by simp⟩
      simp [accepted, listed]
    | called space name wet effects refusal =>
      have late : mid.cluster.refusal (.replace space name) =
          p.cluster.refusal (.replace space name) := trail.refusal (by simp [Call.method])
      rw [late] at refusal
      have ends : outcome = written.map (fun _ => unchanged) ∧ q = last := by
        cases written <;> cases h <;> exact ⟨rfl, rfl⟩
      obtain ⟨rfl, rfl⟩ := ends
      refine ⟨[.get r.space r.configName, .list Access.liveSelector, .replace space name],
        ⟨⟨space, name, by simp⟩, by simp, by simp [accepted, listed], ?_⟩, ?_, ?_⟩
      · simpa [accepted, listed] using fun fault hf => (refusal fault hf).map
      · rw [effects, trail.effects]
        simp
      · simp [wet, Call.method]

end Reconciler

/-- Where an OperandConfig keeps its services. -/
def servicesPath : Path :=
  [.key "spec", .key "services"]

/-- An object that differs in its services only: no other path leads to anything else, and no field
around them has come, gone or moved. -/
structure ReplacesServices (config body : Tree) : Prop where
  services : ∃ services, body.at? servicesPath = some (.list services)
  elsewhere : ∀ path, ¬path <+: servicesPath → ¬servicesPath <+: path →
    body.at? path = config.at? path
  fields : Keyed.keys body.entries = Keyed.keys config.entries
  specFields : Keyed.keys (body.get "spec").entries = Keyed.keys (config.get "spec").entries

theorem replaces_withServices {config : Tree} {held : List Tree} (services : List Tree)
    (h : config.follow ["spec", "services"] = .list held) :
    ReplacesServices config (Reconciler.withServices config services) := by
  obtain ⟨entries, spec, rfl, hs, hl, he⟩ := withServices_eq services h
  have specKey : "spec" ∈ Keyed.keys entries := by
    rw [← Keyed.has_iff_mem_keys, Keyed.has, hs, Option.isSome_some]
  have servicesKey : "services" ∈ Keyed.keys spec := by
    rw [← Keyed.has_iff_mem_keys, Keyed.has, hl, Option.isSome_some]
  rw [he]
  refine ⟨⟨services, ?_⟩, fun path outside around => ?_, ?_, ?_⟩
  · simp [servicesPath, Tree.at?_cons, Tree.child?, Keyed.lookup_insert]
  · cases path with
    | nil => exact absurd List.nil_prefix outside
    | cons first rest =>
      rw [Tree.at?_cons, Tree.at?_cons]
      cases first with
      | index position => rfl
      | key name =>
        rw [Tree.child?, Tree.child?, Keyed.lookup_insert]
        split
        · rename_i hn
          subst hn
          rw [hs, Option.bind_some, Option.bind_some]
          cases rest with
          | nil => exact absurd (by simp [servicesPath]) outside
          | cons second below =>
            rw [Tree.at?_cons, Tree.at?_cons]
            cases second with
            | index position => rfl
            | key inner =>
              have other : inner ≠ "services" := by
                rintro rfl
                exact around (by simp [servicesPath])
              rw [Tree.child?, Tree.child?, Keyed.lookup_insert, if_neg other]
        · rfl
  · exact Keyed.keys_insert_of_mem specKey
  · rw [Tree.get_insert, if_pos rfl, Tree.get_map, hs]
    exact Keyed.keys_insert_of_mem servicesKey

/-- How a reconcile that made these calls leaves the stored object. -/
inductive Leaves (r : Reconciler) (calls : List Call) (before after : Option Tree) :
    Except Failure Bool → Prop where
  /-- It failed, whatever stopped it, and has stored nothing. -/
  | failed (failure : Failure) (kept : after = before) :
      Leaves r calls before after (.error failure)
  /-- A dry run has read everything and stored nothing. -/
  | spared (unchanged : Bool) (dry : r.dryRun = true)
      (made : calls.map Call.method = [.get, .list]) (kept : after = before) :
      Leaves r calls before after (.ok unchanged)
  /-- The object that was read has been written back with other services. -/
  | written (unchanged : Bool) (config body : Tree) (wet : r.dryRun = false)
      (made : calls.map Call.method = [.get, .list, .replace]) (read : before = some config)
      (stored : after = some body) (replaces : ReplacesServices config body) :
      Leaves r calls before after (.ok unchanged)

/-- A reconcile writes once or not at all, whatever it finds stored and listed, and whichever calls
are refused. Its calls come in turn up to the first one that is refused. A call that is not refused
has been accepted, so where it ends well its write has been accepted too. -/
theorem one_write_or_none {r : Reconciler} {job : Job Bool} {p q : Progress}
    {outcome : Except Failure Bool}
    (hj : job = r.shrink ∨ ∃ configs modes, job = r.update configs modes)
    (h : run job p = (outcome, q)) :
    ∃ calls, InTurn r p.cluster outcome calls ∧ q.effects = p.effects ++ calls.map .call ∧
      (∀ unchanged, outcome = .ok unchanged → ∀ call ∈ calls, p.cluster.refusal call = none) ∧
      Leaves r calls p.cluster.config q.cluster.config outcome := by
  obtain ⟨started, prepare, x, rfl⟩ := Reconciler.exists_reconcile hj
  obtain ⟨calls, turn, effects, made⟩ := Reconciler.run_reconcile_calls h
  refine ⟨calls, turn, effects, fun unchanged ho call hc => ?_, ?_⟩
  · subst ho
    exact accepted_of_ok (turn.refused call hc)
  · cases outcome with
    | error failure => exact .failed failure (Reconciler.atomic_reconcile p failure q h).config
    | ok unchanged =>
      have made := made unchanged rfl
      obtain ⟨reading, prepared, _, _, stores⟩ := Reconciler.run_reconcile_ok h
      have written := stores.written
      cases hd : r.dryRun with
      | true =>
        rw [hd, if_pos rfl] at written made
        exact .spared unchanged hd made written
      | false =>
        rw [hd, if_neg (by decide)] at written made
        exact .written unchanged reading.config _ hd made reading.stored written
          (replaces_withServices _ reading.listed)

/-- The OperandConfig changes while a tenant that asks for more is read. -/
def Sample.contended : Progress :=
  let p := start [("replicas", .int 2)]
    [tenant "a" [("services", .list [service [("replicas", .int 3)]])]]
  { p with cluster := { p.cluster with
    schedule := { replace := [some { status := some 409, reason := some "Conflict" }] } } }

theorem one_write_or_none_contended :
    ∃ calls outcome q, run (Sample.reconciler.update [] (.map [])) Sample.contended = (outcome, q) ∧
      outcome = .error (.conflict "OperandConfig ns/common-service was modified concurrently") ∧
      InTurn Sample.reconciler Sample.contended.cluster outcome calls ∧
      q.effects = calls.map .call ∧
      Leaves Sample.reconciler calls Sample.contended.cluster.config q.cluster.config outcome := by
  have refused : (run (Sample.reconciler.update [] (.map [])) Sample.contended).1 =
      .error (.conflict "OperandConfig ns/common-service was modified concurrently") := by
    decide +kernel
  have h := run_of_outcome refused
  obtain ⟨calls, turn, effects, _, leaves⟩ := one_write_or_none (.inr ⟨_, _, rfl⟩) h
  exact ⟨calls, _, _, h, rfl, turn, effects, leaves⟩

end TenantSizing
