import TenantSizing.Notice

namespace TenantSizing

/-- Work that needs nothing from outside. The notices written before a failure are kept. -/
structure Report (α : Type) where
  outcome : Except Failure α
  notices : List Notice

namespace Report

variable {α β : Type}

/-- The outcome decides whether the next piece of work runs; its notices come behind. -/
def andThen (report : Report α) (next : α → Report β) : Report β :=
  match report.outcome with
  | .ok value => ⟨(next value).outcome, report.notices ++ (next value).notices⟩
  | .error failure => ⟨.error failure, report.notices⟩

instance : Monad Report where
  pure value := ⟨.ok value, []⟩
  bind := andThen

def note (notices : List Notice) : Report Unit :=
  ⟨.ok (), notices⟩

def fail (failure : Failure) : Report α :=
  ⟨.error failure, []⟩

def ofExcept (outcome : Except Failure α) : Report α :=
  ⟨outcome, []⟩

@[ext] theorem ext {a b : Report α} (outcome : a.outcome = b.outcome)
    (notices : a.notices = b.notices) : a = b := by
  cases a; cases b; simp_all

@[simp] theorem outcome_pure (value : α) : (pure value : Report α).outcome = .ok value := rfl

@[simp] theorem notices_pure (value : α) : (pure value : Report α).notices = [] := rfl

/-- What a piece of work ends with does not depend on notices. -/
@[simp] theorem outcome_bind (report : Report α) (next : α → Report β) :
    (report >>= next).outcome = report.outcome.bind fun value => (next value).outcome := by
  show (andThen report next).outcome = _
  cases h : report.outcome <;> simp [andThen, h, Except.bind]

theorem notices_bind (report : Report α) (next : α → Report β) :
    (report >>= next).notices =
      match report.outcome with
      | .ok value => report.notices ++ (next value).notices
      | .error _ => report.notices := by
  show (andThen report next).notices = _
  cases h : report.outcome <;> simp [andThen, h]

@[simp] theorem outcome_note (notices : List Notice) : (note notices).outcome = .ok () := rfl

@[simp] theorem notices_note (notices : List Notice) : (note notices).notices = notices := rfl

@[simp] theorem outcome_fail (failure : Failure) :
    (fail failure : Report α).outcome = .error failure := rfl

@[simp] theorem outcome_ofExcept (outcome : Except Failure α) :
    (ofExcept outcome).outcome = outcome := rfl

@[simp] theorem notices_ofExcept (outcome : Except Failure α) :
    (ofExcept outcome).notices = [] := rfl

/-- Folds a list with a step that never fails; each step leaves notices about what it does. -/
def foldNoted (step : α → β → α) (notices : α → β → List Notice) (start : α) (items : List β) :
    Report α :=
  items.foldlM (fun value item => do
    note (notices value item)
    pure (step value item)) start

@[simp] theorem outcome_foldNoted (step : α → β → α) (notices : α → β → List Notice) (start : α)
    (items : List β) :
    (foldNoted step notices start items).outcome = .ok (items.foldl step start) := by
  induction items generalizing start with
  | nil => rfl
  | cons item rest ih =>
    have tail := ih (step start item)
    simp only [foldNoted] at tail ⊢
    simp [List.foldlM_cons, Except.bind, tail]

end Report

end TenantSizing
