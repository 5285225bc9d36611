import TenantSizing.Yaml.Token

namespace TenantSizing

namespace Yaml

variable {σ α β : Type} {inv : σ → Prop} {blame : Fault → Prop} {s : σ}

theorem bind_apply (work : StateT σ (Except Fault) α) (next : α → StateT σ (Except Fault) β)
    (s : σ) : (work >>= next) s = (work s).bind fun p => next p.1 p.2 := rfl

theorem get_bind_apply (next : σ → StateT σ (Except Fault) β) (s : σ) :
    (get >>= next) s = next s s := rfl

/-- From a state, work keeps an invariant or stops for a fault that is to blame. -/
def GuardedAt (inv : σ → Prop) (blame : Fault → Prop) (work : StateT σ (Except Fault) α) (s : σ) :
    Prop :=
  match work s with
  | .ok (_, after) => inv after
  | .error fault => blame fault

theorem GuardedAt.error {work : StateT σ (Except Fault) α} (h : GuardedAt inv blame work s)
    {fault : Fault} (stopped : work s = .error fault) : blame fault := by
  unfold GuardedAt at h
  rwa [stopped] at h

theorem GuardedAt.ok {work : StateT σ (Except Fault) α} (h : GuardedAt inv blame work s)
    {p : α × σ} (done : work s = .ok p) : inv p.2 := by
  unfold GuardedAt at h
  rwa [done] at h

/-- The same from every state with the invariant. -/
def Guarded (inv : σ → Prop) (blame : Fault → Prop) (work : StateT σ (Except Fault) α) : Prop :=
  ∀ s, inv s → GuardedAt inv blame work s

/-- What the first piece of work keeps may be another invariant. -/
theorem GuardedAt.bind {inv' : σ → Prop} {work : StateT σ (Except Fault) α}
    {next : α → StateT σ (Except Fault) β} (h : GuardedAt inv' blame work s)
    (hn : ∀ a after, work s = .ok (a, after) → inv' after → GuardedAt inv blame (next a) after) :
    GuardedAt inv blame (work >>= next) s := by
  unfold GuardedAt
  rw [bind_apply]
  cases done : work s with
  | error fault => exact h.error done
  | ok p => exact hn p.1 p.2 done (h.ok done)

theorem guardedAt_of_ok {work : StateT σ (Except Fault) α} {a : α} {after : σ}
    {next : α → StateT σ (Except Fault) β} (done : work s = .ok (a, after))
    (h : GuardedAt inv blame (next a) after) : GuardedAt inv blame (work >>= next) s := by
  unfold GuardedAt
  rw [bind_apply, done]
  exact h

theorem Guarded.bind {work : StateT σ (Except Fault) α} {next : α → StateT σ (Except Fault) β}
    (h : Guarded inv blame work) (hn : ∀ a, Guarded inv blame (next a)) :
    Guarded inv blame (work >>= next) :=
  fun s hs => (h s hs).bind fun a after _ => hn a after

theorem guarded_pure (a : α) : Guarded inv blame (pure a : StateT σ (Except Fault) α) :=
  fun _ hs => hs

theorem guarded_throw {fault : Fault} (h : blame fault) :
    Guarded inv blame (throw fault : StateT σ (Except Fault) α) :=
  fun _ _ => h

theorem guarded_modify {f : σ → σ} (h : ∀ s, inv s → inv (f s)) :
    Guarded inv blame (modify f : StateT σ (Except Fault) PUnit) :=
  h

theorem guardedAt_get {next : σ → StateT σ (Except Fault) β} (h : GuardedAt inv blame (next s) s) :
    GuardedAt inv blame (get >>= next) s :=
  h

theorem guardedAt_modify {f : σ → σ} {next : PUnit → StateT σ (Except Fault) β}
    (h : GuardedAt inv blame (next ⟨⟩) (f s)) : GuardedAt inv blame (modify f >>= next) s :=
  h

theorem guardedAt_set {s' : σ} {next : PUnit → StateT σ (Except Fault) β}
    (h : GuardedAt inv blame (next ⟨⟩) s') : GuardedAt inv blame (set s' >>= next) s :=
  h

theorem guarded_get {next : σ → StateT σ (Except Fault) β}
    (h : ∀ s, inv s → GuardedAt inv blame (next s) s) : Guarded inv blame (get >>= next) :=
  h

theorem guarded_ite {p : Prop} [Decidable p] {yes no : StateT σ (Except Fault) α}
    (hy : p → Guarded inv blame yes) (hn : ¬p → Guarded inv blame no) :
    Guarded inv blame (if p then yes else no) := by
  split
  · rename_i h
    exact hy h
  · rename_i h
    exact hn h

theorem guarded_map {f : α → β} {work : StateT σ (Except Fault) α} (h : Guarded inv blame work) :
    Guarded inv blame (f <$> work) := by
  rw [map_eq_pure_bind]
  exact h.bind fun a => guarded_pure (f a)

theorem guardedAt_lift {work : Except Fault α} {next : α → StateT σ (Except Fault) β}
    (he : ∀ fault, work = .error fault → blame fault)
    (hn : ∀ a, work = .ok a → GuardedAt inv blame (next a) s) :
    GuardedAt inv blame (liftM work >>= next) s := by
  cases work with
  | error fault => exact he fault rfl
  | ok a => exact hn a rfl

theorem guarded_foldlM {γ : Type} {f : α → γ → StateT σ (Except Fault) α} (xs : List γ)
    (h : ∀ a x, Guarded inv blame (f a x)) (a : α) : Guarded inv blame (xs.foldlM f a) := by
  induction xs generalizing a with
  | nil => exact guarded_pure a
  | cons x xs ih =>
    rw [List.foldlM_cons]
    exact (h a x).bind ih

theorem guarded_forM {γ : Type} {f : γ → StateT σ (Except Fault) PUnit} (xs : List γ)
    (h : ∀ x, Guarded inv blame (f x)) : Guarded inv blame (xs.forM f) := by
  induction xs with
  | nil => exact guarded_pure PUnit.unit
  | cons x xs ih => exact (h x).bind fun _ => ih

theorem guarded_mapM {γ : Type} {f : γ → StateT σ (Except Fault) α} (xs : List γ)
    (h : ∀ x, Guarded inv blame (f x)) : Guarded inv blame (xs.mapM f) := by
  induction xs with
  | nil => exact guarded_pure []
  | cons x xs ih =>
    rw [List.mapM_cons]
    exact (h x).bind fun a => ih.bind fun rest => guarded_pure _

end Yaml

end TenantSizing
