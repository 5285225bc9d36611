import TenantSizing.Proofs.Demands

namespace TenantSizing

/-- The failure without the text by which it names an object. -/
def Failure.unworded : Failure → Failure
  | .notFound _ => .notFound ""
  | .conflict _ => .conflict ""
  | .clusterApi _ fault => .clusterApi "" fault
  | other => other

/-- Both end well with related results, or both fail alike. -/
inductive Agree {α β : Type} (R : α → β → Prop) : Except Failure α → Except Failure β → Prop where
  | ok {a : α} {b : β} (h : R a b) : Agree R (.ok a) (.ok b)
  | error {e f : Failure} (h : e.unworded = f.unworded) : Agree R (.error e) (.error f)

variable {α β γ δ : Type} {R : α → β → Prop} {S : γ → δ → Prop}

namespace Agree

theorem fails (failure : Failure) : Agree R (.error failure) (.error failure) :=
  .error rfl

theorem bind {x : Except Failure α} {y : Except Failure β} {f : α → Except Failure γ}
    {g : β → Except Failure δ} (h : Agree R x y) (hn : ∀ a b, R a b → Agree S (f a) (g b)) :
    Agree S (x.bind f) (y.bind g) := by
  cases h with
  | ok related => exact hn _ _ related
  | error alike => exact .error alike

end Agree

namespace Report

theorem agree_foldlM {xs : List γ} {ys : List δ} {step : α → γ → Report α}
    {step' : β → δ → Report β}
    (hstep : ∀ a b x y, R a b → S x y → Agree R (step a x).outcome (step' b y).outcome)
    (h : List.Forall₂ S xs ys) {a : α} {b : β} (hs : R a b) :
    Agree R (xs.foldlM step a).outcome (ys.foldlM step' b).outcome := by
  induction h generalizing a b with
  | nil => exact .ok hs
  | cons first rest ih =>
    rw [List.foldlM_cons, List.foldlM_cons, outcome_bind, outcome_bind]
    exact (hstep a b _ _ hs first).bind fun _ _ next => ih next

theorem agree_mapM {xs : List γ} {ys : List δ} {work : γ → Report α} {work' : δ → Report β}
    (hw : ∀ x y, S x y → Agree R (work x).outcome (work' y).outcome) (h : List.Forall₂ S xs ys) :
    Agree (List.Forall₂ R) (xs.mapM work).outcome (ys.mapM work').outcome := by
  induction h with
  | nil => exact .ok .nil
  | cons first rest ih =>
    rw [List.mapM_cons, List.mapM_cons, outcome_bind, outcome_bind]
    refine (hw _ _ first).bind fun a b related => ?_
    rw [outcome_bind, outcome_bind]
    exact ih.bind fun _ _ others => .ok (.cons related others)

end Report

end TenantSizing
