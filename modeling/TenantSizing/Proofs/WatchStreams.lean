import TenantSizing.Controller.Watch
import TenantSizing.Proofs.Runs

namespace TenantSizing

open Job

namespace Job

@[simp] theorem run_isStopped (p : Progress) : run isStopped p = (.ok p.stopped, p) := rfl

@[simp] theorem run_stop (p : Progress) :
    run stop p = (.ok (), { p with notices := p.notices ++ [.stopping], stopped := true }) := rfl

end Job

namespace Watch

/-- The events of a batch, up to where it breaks off. -/
@[simp] def eventsOf : Batch → List Tree
  | .event event :: rest | .stopThen event :: rest => event :: eventsOf rest
  | _ => []

/-- What breaks off a batch once its events have been taken, if anything does. -/
@[simp] def faultOf : Batch → Option Failure
  | .event _ :: rest | .stopThen _ :: rest => faultOf rest
  | .refuse fault :: _ => some (.api fault)
  | .collapse message :: _ => some (.unexpected message)
  | [] => none

/-- Behind so many events of a batch the controller is told to stop: just before the next one, or
because the last batch has come to its end. -/
@[simp] def stopsBehind (last : Bool) : Batch → Nat → Bool
  | .event _ :: rest, taken + 1 | .stopThen _ :: rest, taken + 1 => stopsBehind last rest taken
  | .event _ :: _, 0 => false
  | .stopThen _ :: _, 0 => true
  | _, _ => last

/-- The streams that a script gives, and whether the controller is told to stop when they end.
Behind the script there is an empty one. -/
def streamsOf : List Batch → List (Batch × Bool)
  | [] => [([], true)]
  | batch :: rest => (batch, rest.isEmpty) :: streamsOf rest

/-- How the loop reports a failure. -/
def reportOf : Failure → Notice
  | .api fault => .watchFailed fault
  | _ => .watchBroken

theorem level_reportOf (failure : Failure) : (reportOf failure).level = .error := by
  cases failure <;> rfl

/-- What one stream delivers, which of its events have been handled, and the failure of the last
handling if it failed. -/
structure Course where
  batch : Batch
  last : Bool
  handled : List Tree
  failed : Option Failure

namespace Course

variable (c : Course)

/-- The stream itself has broken off for this, behind the last of its events. -/
@[simp] def broken : Option Failure :=
  if c.failed = none ∧ c.handled = eventsOf c.batch then faultOf c.batch else none

/-- What the loop has to survive: the last handling has failed, or the stream has broken off. -/
@[simp] def failure? : Option Failure :=
  c.failed.or c.broken

/-- Behind the last handling the controller is told to stop from outside. -/
@[simp] def told : Bool :=
  c.failed.isNone && stopsBehind c.last c.batch c.handled.length

/-- Where the stream is left, if its events have led to `reached`. -/
@[simp] def leave (reached : Progress) : Progress :=
  { reached with
    stopped := reached.stopped || c.told
    -- what the API ends is reported here once more, before the loop gets to see it
    notices := reached.notices ++ (if c.told then [.stopping] else []) ++
      match c.broken with
      | some (.api fault) => [.streamFailed fault]
      | _ => [] }

/-- The same course with one more event in front. -/
def behind (event : Tree) : Course :=
  { c with batch := .event event :: c.batch, handled := event :: c.handled }

variable {c}

theorem broken_behind (event : Tree) : (c.behind event).broken = c.broken := by
  simp [behind]

theorem failure?_behind (event : Tree) : (c.behind event).failure? = c.failure? := by
  simp only [failure?, broken_behind]
  rfl

theorem leave_behind (event : Tree) (p : Progress) :
    (c.behind event).leave p = c.leave p := by
  simp only [leave, broken_behind]
  rfl

end Course

/-- How work ends that is stopped by a failure, if there is one. -/
@[simp] def outcomeOf : Option Failure → Except Failure Unit
  | some failure => .error failure
  | none => .ok ()

/-- These events have been handled in turn, each of them from where the one before had led, and
never after the controller was told to stop. Only the last handling may have failed. -/
inductive Handles (handle : Tree → Job Unit) :
    Progress → List Tree → Option Failure → Progress → Prop where
  | done (p : Progress) : Handles handle p [] none p
  | next {p mid q : Progress} {event : Tree} {events : List Tree} {failed : Option Failure}
      (going : p.stopped = false) (ran : Job.run (handle event) p = (.ok (), mid))
      (rest : Handles handle mid events failed q) : Handles handle p (event :: events) failed q
  | failed {p q : Progress} {event : Tree} {failure : Failure}
      (going : p.stopped = false) (ran : Job.run (handle event) p = (.error failure, q)) :
      Handles handle p [event] (some failure) q

/-- A course that leads from the opening of the stream to `reached`. Events are handled in order,
and if some are skipped, the last handling has failed or the controller had been told to stop. -/
structure Takes (handle : Tree → Job Unit) (opened : Progress) (c : Course) (reached : Progress) :
    Prop where
  handles : Handles handle opened c.handled c.failed reached
  in_order : c.handled <+: eventsOf c.batch
  skipped : c.handled ≠ eventsOf c.batch → c.failed ≠ none ∨ reached.stopped = true ∨
    stopsBehind false c.batch c.handled.length = true

variable {space : String} {handle : Tree → Job Unit} {p q mid reached : Progress} {event : Tree}
  {c : Course}

/-- Where no event has been handled, nothing has happened. -/
theorem Handles.of_nil {failed : Option Failure} (h : Handles handle p [] failed q) :
    failed = none ∧ q = p := by
  cases h
  exact ⟨rfl, rfl⟩

/-- No event has been handled, either because there is none or because the controller is stopped. -/
theorem Takes.start {batch : Batch} {last : Bool}
    (h : eventsOf batch ≠ [] → p.stopped = true ∨ stopsBehind false batch 0 = true) :
    Takes handle p ⟨batch, last, [], none⟩ p where
  handles := .done p
  in_order := List.nil_prefix
  skipped left := .inr (h (Ne.symm left))

theorem Takes.behind (h : Takes handle mid c reached) (going : p.stopped = false)
    (ran : Job.run (handle event) p = (.ok (), mid)) :
    Takes handle p (c.behind event) reached where
  handles := .next going ran h.handles
  in_order := List.cons_prefix_cons.mpr ⟨rfl, h.in_order⟩
  skipped left := h.skipped fun he => left (congrArg (event :: ·) he)

/-- A stream is left as soon as the controller finds itself stopped. -/
theorem run_consume_of_stopped {last : Bool} {rest : Batch} (stopped : p.stopped = true) :
    Job.run (deliver last (consumeWith handle) () (.event event :: rest)) p = (.ok (), p) := by
  simp [deliver, consumeWith, run_bind, stopped]

/-- Otherwise the event is handled, and what follows depends on how that ends. -/
theorem run_consume_of_going {last : Bool} {rest : Batch} (going : p.stopped = false) :
    Job.run (deliver last (consumeWith handle) () (.event event :: rest)) p =
      match Job.run (handle event) p with
      | (.ok _, mid) => Job.run (deliver last (consumeWith handle) () rest) mid
      | (.error failure, q) => (.error failure, q) := by
  simp only [deliver, consumeWith, run_bind, run_isStopped, going, Bool.false_eq_true, ↓reduceIte]
  rcases Job.run (handle event) p with ⟨_ | _, _⟩ <;> rfl

/-- What a stream delivers takes some course, by induction on the batch. -/
theorem run_deliver (handle : Tree → Job Unit) (last : Bool) (batch : Batch) (p : Progress) :
    ∃ c reached, c.batch = batch ∧ c.last = last ∧ Takes handle p c reached ∧
      Job.run (deliver last (consumeWith handle) () batch) p =
        (outcomeOf c.failure?, c.leave reached) := by
  induction batch generalizing p with
  | nil =>
    refine ⟨_, p, rfl, rfl, .start (by simp), ?_⟩
    cases last <;> simp [deliver]
  | cons delivery rest ih =>
    cases delivery with
    | event event =>
      cases stopped : p.stopped with
      | true =>
        refine ⟨_, p, rfl, rfl, .start fun _ => .inl stopped, ?_⟩
        rw [run_consume_of_stopped stopped]
        simp
      | false =>
        rw [run_consume_of_going stopped]
        rcases ran : Job.run (handle event) p with ⟨failure | ⟨⟩, mid⟩
        · exact ⟨⟨_, last, [event], some failure⟩, mid, rfl, rfl,
            ⟨.failed stopped ran, by simp, fun _ => .inl nofun⟩, by simp⟩
        · obtain ⟨c, reached, rfl, rfl, takes, done⟩ := ih mid
          refine ⟨c.behind event, reached, rfl, rfl, takes.behind stopped ran, ?_⟩
          rw [Course.failure?_behind, Course.leave_behind]
          exact done
    | stopThen event =>
      refine ⟨_, p, rfl, rfl, .start fun _ => .inr rfl, ?_⟩
      simp [deliver, consumeWith, run_bind]
    | refuse fault =>
      refine ⟨_, p, rfl, rfl, .start (by simp), ?_⟩
      cases last <;> simp [deliver, run_bind]
    | collapse message =>
      refine ⟨_, p, rfl, rfl, .start (by simp), ?_⟩
      cases last <;> simp [deliver, run_bind]

/-- One stream, from before it is opened until the loop has done with it. -/
structure Session extends Course where
  start : Progress
  /-- Where the events that have been handled have led. -/
  reached : Progress
  finish : Progress

def opened (space : String) (p : Progress) : Progress :=
  { p with effects := p.effects ++ [.watch space streamTimeout] }

/-- How the loop follows a stream. -/
structure Session.Follows (space : String) (handle : Tree → Job Unit) (s : Session) : Prop where
  /-- The stream is opened, and nothing but its events is handled. -/
  takes : Takes handle (opened space s.start) s.toCourse s.reached
  /-- A stream that ends well is just left. -/
  ended : s.failure? = none → s.finish = s.leave s.reached
  /-- A failure is reported by the loop once, and there is one pause. -/
  survived : ∀ failure, s.failure? = some failure → s.finish =
    { s.leave s.reached with
      notices := (s.leave s.reached).notices ++ [reportOf failure]
      effects := (s.leave s.reached).effects ++ [.sleep 5] }

theorem run_followStream (space : String) (handle : Tree → Job Unit) (last : Bool) (batch : Batch)
    (p : Progress) :
    ∃ s : Session, s.batch = batch ∧ s.last = last ∧ s.start = p ∧ s.Follows space handle ∧
      Job.run (followStream space handle last batch) p = (.ok (), s.finish) := by
  obtain ⟨c, reached, rfl, rfl, takes, done⟩ := run_deliver handle last batch (opened space p)
  have followed : Job.run (do
      openStream space streamTimeout
      deliver c.last (consumeWith handle) () c.batch) p =
      (outcomeOf c.failure?, c.leave reached) := by
    rw [openStream, run_bind_of_ok (run_act _ _)]
    exact done
  unfold followStream
  rw [run_bind_of_ok (run_outcome _ _), followed]
  cases failed : c.failure? with
  | none =>
    refine ⟨⟨c, p, reached, c.leave reached⟩, rfl, rfl, rfl,
      ⟨takes, fun _ => rfl, fun failure he => ?_⟩, rfl⟩
    cases failed.symm.trans he
  | some failure =>
    refine ⟨⟨c, p, reached,
      { c.leave reached with
        notices := (c.leave reached).notices ++ [reportOf failure]
        effects := (c.leave reached).effects ++ [.sleep 5] }⟩,
      rfl, rfl, rfl, ⟨takes, fun he => ?_, fun other he => ?_⟩, ?_⟩
    · cases failed.symm.trans he
    · cases failed.symm.trans he
      rfl
    · cases failure <;> rfl

/-- Sessions in turn. There is another one exactly as long as the controller is not stopped. -/
inductive Leads : Progress → List Session → Progress → Prop where
  | stopped {p : Progress} (h : p.stopped = true) : Leads p [] p
  | going {s : Session} {rest : List Session} {q : Progress} (h : s.start.stopped = false)
      (next : Leads s.finish rest q) : Leads s.start (s :: rest) q

theorem Leads.stopped_at_end {sessions : List Session} (h : Leads p sessions q) :
    q.stopped = true := by
  induction h with
  | stopped h => exact h
  | going _ _ ih => exact ih

theorem run_unless_stopped (work : Job Unit) (p : Progress) :
    Job.run (do if !(← isStopped) then work) p =
      if p.stopped then (.ok (), p) else Job.run work p := by
  rw [run_bind_of_ok (run_isStopped p)]
  cases p.stopped <;> rfl

/-- The last stream, of which nothing is delivered, tells the controller to stop. -/
theorem Session.Follows.stopped_of_empty {s : Session} (h : s.Follows space handle)
    (empty : s.batch = []) (last : s.last = true) : s.finish.stopped = true := by
  have none_handled : s.handled = [] := by simpa [empty] using h.takes.in_order
  have handles := h.takes.handles
  rw [none_handled] at handles
  obtain ⟨well, -⟩ := handles.of_nil
  rw [h.ended (by simp [well, empty])]
  simp [well, empty, last]

theorem run_followAll (space : String) (handle : Tree → Job Unit) (script : List Batch)
    (p : Progress) :
    ∃ sessions q, Leads p sessions q ∧
      sessions.map (fun s => (s.batch, s.last)) <+: streamsOf script ∧
      (∀ s ∈ sessions, s.Follows space handle) ∧
      Job.run (followAll space handle script) p = (.ok (), q) := by
  induction script generalizing p with
  | nil =>
    rw [followAll, run_unless_stopped]
    cases stopped : p.stopped with
    | true => exact ⟨[], p, .stopped stopped, by simp, by simp, rfl⟩
    | false =>
      obtain ⟨s, batch, last, rfl, follows, done⟩ := run_followStream space handle true [] p
      refine ⟨[s], s.finish, .going stopped (.stopped ?_), ?_, by simpa using follows, done⟩
      · exact follows.stopped_of_empty batch last
      · simp [batch, last, streamsOf]
  | cons batch rest ih =>
    rw [followAll, run_unless_stopped]
    cases stopped : p.stopped with
    | true => exact ⟨[], p, .stopped stopped, by simp, by simp, rfl⟩
    | false =>
      obtain ⟨s, rfl, last, rfl, follows, done⟩ :=
        run_followStream space handle rest.isEmpty batch p
      obtain ⟨sessions, q, leads, streams, all, later⟩ := ih s.finish
      refine ⟨s :: sessions, q, .going stopped leads, ?_,
        List.forall_mem_cons.mpr ⟨follows, all⟩, ?_⟩
      · rw [List.map_cons, last]
        exact List.cons_prefix_cons.mpr ⟨rfl, streams⟩
      · rw [if_neg (by simp), run_bind_of_ok done, later]

end Watch

/-- Following the watch streams outlives every failure, whatever the handler does: it ends well, and
not before the controller has been told to stop. Every stream but the first is opened where the loop
had done with the one before, which a failure delays by one error and one pause and nothing else
does; none is opened once the controller has been told to stop. Of the events of a stream the first
ones are handled, in order and each once, and none of them after that. Events are left out only
behind a handling that failed or behind the stop. -/
theorem watching_outlives_failures (space : String) (handle : Tree → Job Unit) (script : List Batch)
    (p : Progress) :
    (∃ (sessions : List Watch.Session) (q : Progress),
      Job.run (Watch.followAll space handle script) p = (.ok (), q) ∧ q.stopped = true ∧
      Watch.Leads p sessions q ∧
      sessions.map (fun s => (s.batch, s.last)) <+: Watch.streamsOf script ∧
      ∀ s ∈ sessions, s.Follows space handle) ∧
    (∀ failure, (Watch.reportOf failure).level = .error) ∧
    ∀ c : Controller, Job.run (c.watch script) p =
      Job.run (Watch.followAll c.watched c.handleDelivered script)
        { p with notices := p.notices ++ [.watchStarted] } := by
  refine ⟨?_, Watch.level_reportOf, fun c => run_bind_of_ok (run_note _ _)⟩
  obtain ⟨sessions, q, leads, streams, all, done⟩ := Watch.run_followAll space handle script p
  exact ⟨sessions, q, done, leads.stopped_at_end, leads, streams, all⟩

end TenantSizing
